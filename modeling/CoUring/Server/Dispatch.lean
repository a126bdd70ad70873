import CoUring.Server.Sessions

namespace CoUring

open Foundation Server

variable {server before after : Server} {worker : WorkerId} {frame : FrameId}
  {cqe : Cqe} {rest : List Cqe} {generated : SessionId}

/-! The accept guard queues its request on the first await only. -/

def Server.GuardsArmed (server : Server) : Prop :=
  ∀ worker socketServer acceptGuard,
    (server.workers worker).socketServer = some socketServer →
    socketServer.multishotAcceptGuard = some acceptGuard →
    acceptGuard.initialAwait = false

theorem Server.GuardsArmed.congr (armed : before.GuardsArmed)
    (workers : after.workers = before.workers) : after.GuardsArmed := by
  rw [GuardsArmed, workers]
  exact armed

theorem Server.GuardsArmed.setWorker (armed : server.GuardsArmed)
    {contents : Worker}
    (here : ∀ socketServer acceptGuard,
      contents.socketServer = some socketServer →
      socketServer.multishotAcceptGuard = some acceptGuard →
      acceptGuard.initialAwait = false) :
    (server.setWorker worker contents).GuardsArmed :=
  setWorker_forall worker contents
    (fun _ contents => ∀ socketServer acceptGuard,
      contents.socketServer = some socketServer →
      socketServer.multishotAcceptGuard = some acceptGuard →
      acceptGuard.initialAwait = false) here armed

theorem Server.GuardsArmed.setWorker_socket (armed : server.GuardsArmed)
    {contents : Worker}
    (socket : contents.socketServer = (server.workers worker).socketServer) :
    (server.setWorker worker contents).GuardsArmed :=
  armed.setWorker fun socketServer acceptGuard listening guarded =>
    armed worker socketServer acceptGuard (socket.symm.trans listening) guarded

theorem MultishotAcceptGuard.awaitSuspend_armed
    (acceptGuard : MultishotAcceptGuard) (ring : IoUring)
    (address : SqeAddr) (frame : FrameId) :
    (acceptGuard.awaitSuspend ring address frame).1.initialAwait = false := by
  unfold awaitSuspend
  dsimp only
  split
  · rfl
  next armed => simpa using armed

theorem Server.GuardsArmed.awaitAccept (armed : server.GuardsArmed) :
    (server.awaitAccept worker frame).GuardsArmed := by
  unfold Server.awaitAccept
  dsimp only
  split
  · exact armed.congr rfl
  next socketServer listening =>
    refine GuardsArmed.congr (armed.setWorker ?_) (suspendAt_workers _)
    rintro _ acceptGuard ⟨⟩ ⟨⟩
    exact MultishotAcceptGuard.awaitSuspend_armed _ _ _ _

theorem Server.GuardsArmed.startWorker (armed : server.GuardsArmed)
    (fresh : server.workers worker = {}) (outcome : InitOutcome) :
    (server.startWorker worker outcome).GuardsArmed := by
  have sockets := initStages_socketServer outcome
    { server.workers worker with phase := .looping }
  have initial : (server.setWorker worker (initStages outcome
      { server.workers worker with phase := .looping }).1).GuardsArmed := by
    refine armed.setWorker fun socketServer acceptGuard listening guarded => ?_
    rcases sockets with ⟨-, same⟩ | ⟨-, rawFd, socket⟩
    · rw [same, fresh] at listening
      cases listening
    · rw [socket] at listening
      cases listening
      cases guarded
  unfold Server.startWorker
  dsimp only
  split
  · refine GuardsArmed.congr ?_ spawn_workers
    unfold Server.acceptClients
    dsimp only
    split
    · exact initial.congr rfl
    · exact GuardsArmed.awaitAccept (initial.congr rfl)
  · exact initial

def Worker.listening (worker : Worker) : Option File :=
  worker.socketServer.map SocketServer.file

/-! Everything one dispatch can do. -/

/-- A new connection's coroutines: `HandleClientSession` awaits
`HandleSession`, and the lambda of `spawn` awaits the former. -/
def Server.connectedCells (server : Server) (worker : WorkerId)
    (client : File) (generated : SessionId) : FrameId → Option Frame :=
  let frame := server.frames.next
  let session := server.manager.objects.next
  Function.update (Function.update (Function.update server.frames.cell
    frame (some ⟨worker, .handleClientSession session generated
      (frame + 1)⟩))
    (frame + 1) (some ⟨worker, .handleSession session generated
      { client.recv with
        sqeData := { coroutine := some (frame + 1) } }⟩))
    (frame + 2) (some ⟨worker, .spawnLambda frame⟩)

def Server.seenRing (server : Server) (worker : WorkerId)
    (rest : List Cqe) : IoUring :=
  { (server.workers worker).ioUring with cq := rest }

inductive DispatchOutcome (server : Server) (worker : WorkerId) (cqe : Cqe)
    (rest : List Cqe) (generated : SessionId) (after : Server) : Prop
  | refused (carries : cqe.userData = some (.acceptGuard worker))
      (failed : cqe.res < 0)
      (ring : (after.workers worker).ioUring = server.seenRing worker rest)
      (buffers : (after.workers worker).buffers =
        (server.workers worker).buffers)
      (cells : after.frames.cell = server.frames.cell)
      (manager : after.manager = server.manager)
  | accepted (carries : cqe.userData = some (.acceptGuard worker))
      (success : 0 ≤ cqe.res)
      (ring : (after.workers worker).ioUring =
        (server.seenRing worker rest).queueRequest
          ⟨.recv, cqe.res.toNat,
            .recvAwaiter (server.frames.next + 1) .awaited⟩)
      (buffers : (after.workers worker).buffers =
        (server.workers worker).buffers)
      (cells : after.frames.cell =
        server.connectedCells worker (.adopt cqe.res.toNat) generated)
      (manager : after.manager = server.manager.connectSession
        (.adopt cqe.res.toNat) generated server.clock server.frames.next
          (server.frames.next + 1))
  | received {frame : FrameId} {session : SessionPtr}
      {sessionId : SessionId} {awaiter : RecvAwaiter} (rawFd : RawFd)
      (carries : cqe.userData = some (.recvAwaiter frame .awaited))
      (suspended : server.frames.cell frame =
        some ⟨worker, .handleSession session sessionId awaiter⟩)
      (received : 0 < cqe.res)
      (ring : (after.workers worker).ioUring =
        (server.seenRing worker rest).queueRequest
          ⟨.recv, rawFd, .recvAwaiter frame .awaited⟩)
      (buffers : (after.workers worker).buffers =
        ((server.workers worker).buffers.borrowBuf 0).1)
      (cells : after.frames.cell = Function.update server.frames.cell frame
        (some ⟨worker, .handleSession session sessionId
          { rawFd, sqeData := { coroutine := some frame } }⟩))
      (manager : after.manager = server.manager)
  | ended {frame : FrameId} {session : SessionPtr} {sessionId : SessionId}
      {awaiter : RecvAwaiter}
      (carries : cqe.userData = some (.recvAwaiter frame .awaited))
      (suspended : server.frames.cell frame =
        some ⟨worker, .handleSession session sessionId awaiter⟩)
      (ended : cqe.res ≤ 0)
      (ring : (after.workers worker).ioUring = server.seenRing worker rest)
      (buffers : (after.workers worker).buffers =
        (server.workers worker).buffers)
      (cells : after.frames.cell =
        Function.update server.frames.cell frame none)
      (manager : after.manager = ((server.manager.modifySession session
        GameSession.onDisconnected).removeSession sessionId).release session
          (.frame frame))

structure Dispatched (server : Server) (worker : WorkerId) (cqe : Cqe)
    (rest : List Cqe) (generated : SessionId) (after : Server) : Prop where
  others : ∀ other, other ≠ worker →
    after.workers other = server.workers other
  armed : after.GuardsArmed
  listening : (after.workers worker).listening =
    (server.workers worker).listening
  outcome : DispatchOutcome server worker cqe rest generated after

theorem Server.delivered_accept {socketServer : SocketServer}
    {acceptGuard : MultishotAcceptGuard}
    (listening : (server.workers worker).socketServer = some socketServer)
    (guarded : socketServer.multishotAcceptGuard = some acceptGuard) :
    server.delivered worker cqe rest (.acceptGuard worker) =
      server.setWorker worker
        { (server.workers worker).seen cqe rest with
          socketServer := some { socketServer with
            multishotAcceptGuard :=
              some (acceptGuard.store cqe.res cqe.flags) } } := by
  simp [delivered, storeResult, Worker.seen, listening, guarded, setWorker]

theorem Server.delivered_recv {session : SessionPtr} {sessionId : SessionId}
    {awaiter : RecvAwaiter}
    (suspended : server.frames.cell frame =
      some ⟨worker, .handleSession session sessionId awaiter⟩) :
    server.delivered worker cqe rest (.recvAwaiter frame .awaited) =
      (server.setWorker worker ((server.workers worker).seen cqe
        rest)).suspendAt worker frame (.handleSession session sessionId
          (awaiter.store cqe.res cqe.flags)) := by
  rw [delivered, storeResult_recv]
  exact suspended

theorem Server.suspendAt_again {point : FramePoint} {thread : WorkerId}
    (stored : server.frames.cell frame = some ⟨thread, point⟩) :
    (server.suspendAt worker frame point).frames.cell =
      server.frames.cell := by
  rw [suspendAt, threadOf_stored stored]
  exact (congrArg _ stored.symm).trans (Function.update_eq_self frame _)

theorem Server.connect_next (client : File) :
    (server.connect worker client generated).frames.next =
      server.frames.next + 2 := by
  simp [connect, awaitRecv, suspendAt, Heap.next_put]

theorem Server.connectedCells_handler (client : File) :
    server.connectedCells worker client generated (server.frames.next + 1) =
      some ⟨worker, .handleSession server.manager.objects.next generated
        { client.recv with
          sqeData := { coroutine := some (server.frames.next + 1) } }⟩ := by
  rw [connectedCells]
  dsimp only
  rw [Function.update_of_ne (Nat.ne_of_lt (Nat.lt_succ_self _)),
    Function.update_self]

theorem Server.connectedCells_cases (client : File) {contents : Frame}
    (stored : server.connectedCells worker client generated frame =
      some contents) :
    frame = server.frames.next ∧ contents = ⟨worker, .handleClientSession
        server.manager.objects.next generated (server.frames.next + 1)⟩ ∨
    frame = server.frames.next + 1 ∧ contents = ⟨worker, .handleSession
        server.manager.objects.next generated { client.recv with
          sqeData := { coroutine := some (server.frames.next + 1) } }⟩ ∨
    frame = server.frames.next + 2 ∧
      contents = ⟨worker, .spawnLambda server.frames.next⟩ ∨
    server.frames.cell frame = some contents := by
  rw [connectedCells] at stored
  dsimp only at stored
  by_cases lambda : frame = server.frames.next + 2
  · subst lambda
    rw [Function.update_self] at stored
    exact .inr (.inr (.inl ⟨rfl, (Option.some.inj stored).symm⟩))
  · rw [Function.update_of_ne lambda] at stored
    by_cases inner : frame = server.frames.next + 1
    · subst inner
      rw [Function.update_self] at stored
      exact .inr (.inl ⟨rfl, (Option.some.inj stored).symm⟩)
    · rw [Function.update_of_ne inner] at stored
      by_cases outer : frame = server.frames.next
      · subst outer
        rw [Function.update_self] at stored
        exact .inl ⟨rfl, (Option.some.inj stored).symm⟩
      · rw [Function.update_of_ne outer] at stored
        exact .inr (.inr (.inr stored))

structure AwaitsAgain (worker : WorkerId) (before after : Server) :
    Prop where
  others : ∀ other, other ≠ worker →
    after.workers other = before.workers other
  ring : (after.workers worker).ioUring = (before.workers worker).ioUring
  buffers : (after.workers worker).buffers = (before.workers worker).buffers
  listening : (after.workers worker).listening =
    (before.workers worker).listening
  cells : after.frames.cell = before.frames.cell
  manager : after.manager = before.manager

theorem Server.GuardsArmed.awaitsAgain (armed : server.GuardsArmed)
    (names : (server.workers worker).acceptor ≠ none)
    (suspended : server.frames.cell frame = some ⟨worker, .acceptClients⟩) :
    AwaitsAgain worker server (server.awaitAccept worker frame) := by
  obtain ⟨acceptor, names⟩ := Option.ne_none_iff_exists'.mp names
  obtain ⟨acceptGuard, present, named⟩ := Option.bind_eq_some_iff.mp names
  obtain ⟨socketServer, listening, guarded⟩ :=
    Option.bind_eq_some_iff.mp present
  have isArmed := armed worker socketServer acceptGuard listening guarded
  have again : server.awaitAccept worker frame =
      (server.setWorker worker { server.workers worker with
        socketServer := some { socketServer with
          multishotAcceptGuard := some { acceptGuard with
            sqeData := { acceptGuard.sqeData with
              coroutine := some frame } } } }).suspendAt worker frame
                .acceptClients := by
    simp [Server.awaitAccept, listening, SocketServer.accept, guarded,
      MultishotAcceptGuard.awaitSuspend, isArmed]
  rw [again]
  refine ⟨?_, ?_, ?_, ?_, suspendAt_again suspended, rfl⟩
  · intro other different
    rw [suspendAt_workers, setWorker_other _ different]
  · rw [suspendAt_workers, setWorker_self]
  · rw [suspendAt_workers, setWorker_self]
  · rw [suspendAt_workers, setWorker_self, Worker.listening, Worker.listening,
      listening]
    rfl

/-- The server once `HandleClientSession` is called through `spawn`. -/
def Server.connectSpawn (server : Server) (worker : WorkerId) (client : File)
    (generated : SessionId) : Server :=
  (server.connect worker client generated).spawn worker server.frames.next

theorem Server.connectSpawn_workers (client : File) :
    (server.connectSpawn worker client generated).workers =
      (server.setIoUring worker ((server.workers worker).ioUring.queueRequest
        ⟨.recv, client.getRawFd,
          .recvAwaiter (server.frames.next + 1) .awaited⟩)).workers := by
  rw [connectSpawn, spawn_workers]
  rfl

theorem Server.connectSpawn_manager (client : File) :
    (server.connectSpawn worker client generated).manager =
      server.manager.connectSession client generated server.clock
        server.frames.next (server.frames.next + 1) := by
  rw [connectSpawn, spawn_eq (connect_frame client generated)]
  rfl

theorem Server.connectSpawn_cells (client : File) :
    (server.connectSpawn worker client generated).frames.cell =
      server.connectedCells worker client generated := by
  rw [connectSpawn, spawn_eq (connect_frame client generated), connect_next]
  funext other
  rw [connectedCells]
  dsimp only
  by_cases lambda : other = server.frames.next + 2
  · subst lambda
    rw [suspendAt_self, Function.update_self, threadOf_new]
    exact (server.connect worker client generated).frames.fresh _
      (connect_next client).le
  · rw [suspendAt_other _ lambda, Function.update_of_ne lambda]
    by_cases inner : other = server.frames.next + 1
    · subst inner
      rw [Function.update_self]
      exact connect_handler client generated
    · rw [Function.update_of_ne inner]
      by_cases outer : other = server.frames.next
      · subst outer
        rw [Function.update_self]
        exact connect_frame client generated
      · rw [Function.update_of_ne outer]
        exact connect_other client generated outer inner

theorem Server.connectedCells_old (client : File) {contents : Frame}
    (stored : server.frames.cell frame = some contents) :
    server.connectedCells worker client generated frame = some contents := by
  have below := Heap.lt_next stored
  rw [connectedCells]
  dsimp only
  rw [Function.update_of_ne (Nat.ne_of_lt (Nat.lt_add_right 2 below)),
    Function.update_of_ne (Nat.ne_of_lt (Nat.lt_succ_of_lt below)),
    Function.update_of_ne (Nat.ne_of_lt below)]
  exact stored

/-- A completion was taken and stored in the accept guard, whose coroutine still
waits at `accept()`. -/
structure AcceptTaken (server taken : Server) (worker : WorkerId)
    (rest : List Cqe) (frame : FrameId) : Prop where
  others : ∀ other, other ≠ worker →
    taken.workers other = server.workers other
  armed : taken.GuardsArmed
  ring : (taken.workers worker).ioUring = server.seenRing worker rest
  buffers : (taken.workers worker).buffers = (server.workers worker).buffers
  listening : (taken.workers worker).listening =
    (server.workers worker).listening
  acceptor : (taken.workers worker).acceptor = some frame
  suspended : taken.frames.cell frame = some ⟨worker, .acceptClients⟩
  frames : taken.frames = server.frames
  manager : taken.manager = server.manager
  clock : taken.clock = server.clock

namespace AcceptTaken

variable {taken : Server}

theorem of_guard {socketServer : SocketServer}
    {acceptGuard : MultishotAcceptGuard} (armed : server.GuardsArmed)
    (listening : (server.workers worker).socketServer = some socketServer)
    (guarded : socketServer.multishotAcceptGuard = some acceptGuard)
    (named : acceptGuard.sqeData.coroutine = some frame)
    (suspended : server.frames.cell frame = some ⟨worker, .acceptClients⟩) :
    AcceptTaken server
      (server.setWorker worker { (server.workers worker).seen cqe rest with
        socketServer := some { socketServer with
          multishotAcceptGuard :=
            some (acceptGuard.store cqe.res cqe.flags) } })
      worker rest frame where
  others := fun _ => setWorker_other _
  armed := by
    refine armed.setWorker ?_
    rintro _ _ ⟨⟩ ⟨⟩
    exact armed worker socketServer acceptGuard listening guarded
  ring := by
    rw [setWorker_self]
    rfl
  buffers := by
    rw [setWorker_self]
    rfl
  listening := by
    rw [setWorker_self, Worker.listening, Worker.listening, listening]
    rfl
  acceptor := by
    rw [setWorker_self]
    exact named
  suspended := suspended
  frames := rfl
  manager := rfl
  clock := rfl

theorem refused (took : AcceptTaken server taken worker rest frame)
    (carries : cqe.userData = some (.acceptGuard worker))
    (failed : cqe.res < 0) :
    Dispatched server worker cqe rest generated
      (taken.awaitAccept worker frame) := by
  have again := took.armed.awaitsAgain
    (took.acceptor ▸ Option.some_ne_none frame) took.suspended
  refine ⟨fun other different => ?_, took.armed.awaitAccept,
    again.listening.trans took.listening,
    .refused carries failed (again.ring.trans took.ring)
      (again.buffers.trans took.buffers) ?_ (again.manager.trans took.manager)⟩
  · rw [again.others other different, took.others other different]
  · rw [again.cells, took.frames]

theorem accepted (took : AcceptTaken server taken worker rest frame)
    (carries : cqe.userData = some (.acceptGuard worker))
    (success : 0 ≤ cqe.res) :
    Dispatched server worker cqe rest generated
      ((taken.connectSpawn worker (.adopt cqe.res.toNat)
        generated).awaitAccept worker frame) := by
  have workers := @connectSpawn_workers taken worker generated
    (.adopt cqe.res.toNat)
  have manager := @connectSpawn_manager taken worker generated
    (.adopt cqe.res.toNat)
  have cells := @connectSpawn_cells taken worker generated
    (.adopt cqe.res.toNat)
  generalize taken.connectSpawn worker (.adopt cqe.res.toNat) generated =
    connected at *
  have armed : connected.GuardsArmed := by
    refine GuardsArmed.congr ?_ workers
    exact took.armed.setWorker_socket rfl
  have acceptor : (connected.workers worker).acceptor ≠ none := by
    rw [workers, (setIoUring_same _ _ _ _).2, took.acceptor]
    exact Option.some_ne_none frame
  have again := armed.awaitsAgain acceptor
    ((congrFun cells frame).trans (connectedCells_old _ took.suspended))
  refine ⟨fun other different => ?_, armed.awaitAccept, ?_,
    .accepted carries success ?_ ?_ ?_ ?_⟩
  · rw [again.others other different, workers, setIoUring,
      setWorker_other _ different, took.others other different]
  · rw [again.listening, workers, setIoUring, setWorker_self]
    exact took.listening
  · rw [again.ring, workers, setIoUring, setWorker_self, took.ring,
      took.frames]
    rfl
  · rw [again.buffers, workers, setIoUring, setWorker_self]
    exact took.buffers
  · rw [again.cells, cells, connectedCells, connectedCells, took.frames,
      took.manager]
  · rw [again.manager, manager, took.frames, took.manager, took.clock]

end AcceptTaken

theorem Dispatched.accept (sessions : SessionsKept server)
    (armed : server.GuardsArmed)
    (carries : cqe.userData = some (.acceptGuard worker))
    (names : (server.workers worker).acceptor = some frame)
    (suspended : server.frames.cell frame = some ⟨worker, .acceptClients⟩) :
    Dispatched server worker cqe rest generated
      ((server.delivered worker cqe rest (.acceptGuard worker)).resume worker
        frame generated) := by
  obtain ⟨acceptGuard, present, named⟩ := Option.bind_eq_some_iff.mp names
  obtain ⟨socketServer, listening, guarded⟩ :=
    Option.bind_eq_some_iff.mp present
  rw [delivered_accept listening guarded]
  have took := @AcceptTaken.of_guard server worker frame cqe rest socketServer
    acceptGuard armed listening guarded named suspended
  have listens := @setWorker_self server worker
    { (server.workers worker).seen cqe rest with
      socketServer := some { socketServer with
        multishotAcceptGuard := some (acceptGuard.store cqe.res cqe.flags) } }
  generalize server.setWorker worker _ = taken at took listens ⊢
  have result : (SocketServer.accept { socketServer with
      multishotAcceptGuard := some (acceptGuard.store cqe.res
        cqe.flags) }).awaitResume =
      if cqe.res < 0 then none else some (.adopt cqe.res.toNat) := rfl
  simp only [Server.resume, took.suspended, resumeAcceptClients, listens,
    result]
  by_cases failed : cqe.res < 0
  · rw [if_pos failed]
    exact took.refused carries failed
  · have made : taken.manager.EntriesMade := by
      rw [took.manager]
      exact sessions.made
    rw [if_neg failed]
    dsimp only
    rw [handleClientSession_eq made rfl]
    exact took.accepted carries (not_lt.mp failed)

/-- A completion was taken and stored in the awaiter of the coroutine that waits
for it. -/
structure RecvTaken (server taken : Server) (worker : WorkerId) (cqe : Cqe)
    (rest : List Cqe) (frame : FrameId) (session : SessionPtr)
    (sessionId : SessionId) (awaiter : RecvAwaiter) : Prop where
  others : ∀ other, other ≠ worker →
    taken.workers other = server.workers other
  armed : taken.GuardsArmed
  here : taken.workers worker = (server.workers worker).seen cqe rest
  suspended : taken.frames.cell frame =
    some ⟨worker, .handleSession session sessionId awaiter⟩
  cells : ∀ contents, Function.update taken.frames.cell frame contents =
    Function.update server.frames.cell frame contents
  manager : taken.manager = server.manager

namespace RecvTaken

variable {taken : Server} {session : SessionPtr} {sessionId : SessionId}
  {awaiter awaited : RecvAwaiter}

theorem of_awaiter (armed : server.GuardsArmed)
    (suspended : server.frames.cell frame =
      some ⟨worker, .handleSession session sessionId awaiter⟩) :
    RecvTaken server
      ((server.setWorker worker ((server.workers worker).seen cqe
        rest)).suspendAt worker frame (.handleSession session sessionId
          (awaiter.store cqe.res cqe.flags)))
      worker cqe rest frame session sessionId
        (awaiter.store cqe.res cqe.flags) where
  others := fun _ => setWorker_other _
  armed := armed.setWorker_socket rfl
  here := setWorker_self _
  suspended := by
    rw [suspendAt_self, setWorker_threadOf, threadOf_stored suspended]
  cells := fun _ => Function.update_idem _ _ _
  manager := rfl

theorem received
    (took : RecvTaken server taken worker cqe rest frame session sessionId
      awaited)
    (carries : cqe.userData = some (.recvAwaiter frame .awaited))
    (suspended : server.frames.cell frame =
      some ⟨worker, .handleSession session sessionId awaiter⟩)
    (success : 0 < cqe.res) (rawFd : RawFd) :
    Dispatched server worker cqe rest generated
      ((taken.setBuffers worker
        ((taken.workers worker).buffers.borrowBuf 0).1).awaitRecv worker frame
          session sessionId (.adopt rawFd)) := by
  refine ⟨fun other different => ?_, ?_, ?_,
    .received rawFd carries suspended success ?_ ?_ ?_ took.manager⟩
  · rw [awaitRecv, suspendAt_workers, setIoUring, setWorker_other _ different,
      setBuffers, setWorker_other _ different]
    exact took.others other different
  · refine GuardsArmed.congr ?_ (suspendAt_workers _)
    refine GuardsArmed.setWorker_socket ?_ rfl
    exact GuardsArmed.setWorker_socket took.armed rfl
  · rw [awaitRecv, suspendAt_workers, setIoUring, setWorker_self, setBuffers,
      setWorker_self, took.here]
    rfl
  · rw [awaitRecv, suspendAt_workers, setIoUring, setWorker_self, setBuffers,
      setWorker_self, took.here]
    rfl
  · rw [awaitRecv, suspendAt_workers, setIoUring, setWorker_self, setBuffers,
      setWorker_self, took.here]
    rfl
  · have resuspended : ((taken.setBuffers worker
        ((taken.workers worker).buffers.borrowBuf 0).1).awaitRecv worker
          frame session sessionId (.adopt rawFd)).frames.cell =
        Function.update taken.frames.cell frame
          (some ⟨taken.threadOf worker frame, .handleSession session sessionId
            { rawFd, sqeData := { coroutine := some frame } }⟩) := rfl
    rw [resuspended, threadOf_stored took.suspended]
    exact took.cells _

theorem ended
    (took : RecvTaken server taken worker cqe rest frame session sessionId
      awaited)
    (carries : cqe.userData = some (.recvAwaiter frame .awaited))
    (suspended : server.frames.cell frame =
      some ⟨worker, .handleSession session sessionId awaiter⟩)
    (nothing : cqe.res ≤ 0) :
    Dispatched server worker cqe rest generated
      (taken.leaveHandleSession frame session sessionId) := by
  refine ⟨took.others, took.armed, ?_,
    .ended carries suspended nothing ?_ ?_ ?_ ?_⟩
  · change (taken.workers worker).listening = _
    rw [took.here]
    rfl
  · exact congrArg Worker.ioUring took.here
  · change (taken.workers worker).buffers = _
    rw [took.here]
    rfl
  · rw [leaveHandleSession_frames]
    exact took.cells none
  · rw [← took.manager]
    rfl

end RecvTaken

theorem Dispatched.recv (sessions : SessionsKept server)
    (armed : server.GuardsArmed) {session : SessionPtr}
    {sessionId : SessionId} {awaiter : RecvAwaiter}
    (carries : cqe.userData = some (.recvAwaiter frame .awaited))
    (suspended : server.frames.cell frame =
      some ⟨worker, .handleSession session sessionId awaiter⟩) :
    Dispatched server worker cqe rest generated
      ((server.delivered worker cqe rest
        (.recvAwaiter frame .awaited)).resume worker frame generated) := by
  have below := sessions.handled _ _ _ _ _ suspended
  obtain ⟨contents, rawFd, found, client⟩ := sessions.found below
  rw [delivered_recv suspended]
  have took := @RecvTaken.of_awaiter server worker frame cqe rest session sessionId
    awaiter armed suspended
  have found' : ((server.setWorker worker ((server.workers worker).seen cqe
      rest)).suspendAt worker frame (.handleSession session sessionId
        (awaiter.store cqe.res cqe.flags))).session session = some contents :=
    found
  generalize (server.setWorker worker _).suspendAt worker frame _ = taken at *
  simp only [Server.resume, took.suspended]
  by_cases success : 0 < cqe.res
  · rw [resumeHandleSession_received found' client rfl success]
    exact took.received carries suspended success rawFd
  · rw [resumeHandleSession_ended found' client (not_lt.mp success)]
    exact took.ended carries suspended (not_lt.mp success)

theorem RingsMatch.dispatched (matched : RingsMatch server)
    (sessions : SessionsKept server) (armed : server.GuardsArmed)
    (started : server.Started worker)
    (next : (server.workers worker).ioUring.cq = cqe :: rest)
    (generated : SessionId) :
    Dispatched server worker cqe rest generated ((server.setWorker worker
      ((server.workers worker).seen cqe rest)).dispatchCqe worker cqe
        generated) := by
  obtain ⟨address, frame, delivery⟩ := matched.deliver started next
  rw [delivery.resumes]
  have carries := delivery.carries
  cases delivery.awaits with
  | accept names suspended =>
      exact .accept sessions armed carries names suspended
  | recv names suspended => exact .recv sessions armed carries suspended
  | send names suspended => exact absurd suspended (sessions.silent _ _ _ _)

theorem Server.GuardsArmed.step (armed : before.GuardsArmed)
    (matched : RingsMatch before) (sessions : SessionsKept before)
    {label : Label} (stepped : Stepped before label after) :
    after.GuardsArmed := by
  cases stepped with
  | start unstarted =>
      exact armed.startWorker
        (matched.unstarted _ (not_not.mpr unstarted)) _
  | dispatch dispatching next =>
      exact (matched.dispatched sessions armed
        (started_of_phase dispatching Phase.noConfusion) next _).armed
  | submit looping => exact armed.setWorker_socket rfl
  | submitFails looping => exact armed.setWorker_socket rfl
  | wake waiting present => exact armed.setWorker_socket rfl
  | endBatch dispatching empty => exact armed.setWorker_socket rfl
  | complete completed =>
      exact armed.setWorker_socket (Worker.complete_same completed).2.1
  | cleanup swept => exact armed
  | tick => exact armed

theorem guardsArmed_of_reachable (reachable : serverSystem.Reachable server) :
    server.GuardsArmed := by
  refine TransitionSystem.Invariant.of_reachable GuardsArmed ?_ ?_ _ reachable
  · rintro _ rfl worker socketServer acceptGuard listening
    cases listening
  · intro before label after reached armed step
    exact armed.step (ringsMatch_of_reachable reached)
      (sessionsKept_of_reachable reached) (step_cases step).2

theorem dispatched_of_reachable (reachable : serverSystem.Reachable server)
    (dispatching : (server.workers worker).phase = .dispatching)
    (next : (server.workers worker).ioUring.cq = cqe :: rest)
    (generated : SessionId) :
    Dispatched server worker cqe rest generated ((server.setWorker worker
      ((server.workers worker).seen cqe rest)).dispatchCqe worker cqe
        generated) :=
  (ringsMatch_of_reachable reachable).dispatched
    (sessionsKept_of_reachable reachable) (guardsArmed_of_reachable reachable)
    (started_of_phase dispatching Phase.noConfusion) next generated

end CoUring
