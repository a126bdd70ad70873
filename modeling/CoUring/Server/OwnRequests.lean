import CoUring.Server.Sends
import CoUring.Server.SessionSteps

namespace CoUring

open Foundation Server SessionManager

variable {server before after : Server} {worker : WorkerId}
  {frame : FrameId} {cqe : Cqe} {rest : List Cqe} {generated : SessionId}
  {session : SessionPtr} {sessionId : SessionId} {awaiter : RecvAwaiter}
  {request : Request}

/-! What the kernel is asked for. -/

def Server.ClientFd (server : Server) (session : SessionPtr)
    (rawFd : RawFd) : Prop :=
  ∃ contents, server.session session = some contents ∧
    contents.client = some (.adopt rawFd)

/-- The requests a worker may make: to accept on its own listening socket, and
to receive from the client of a session that one of its coroutines handles. -/
inductive Server.Owns (server : Server) (worker : WorkerId) : Request → Prop
  | accept {file : File}
      (listening : (server.workers worker).listening = some file) :
      Owns server worker
        ⟨.multishotAccept, file.getRawFd, .acceptGuard worker⟩
  | recv {frame : FrameId} {session : SessionPtr} {sessionId : SessionId}
      {awaiter : RecvAwaiter}
      (suspended : server.frames.cell frame =
        some ⟨worker, .handleSession session sessionId awaiter⟩)
      (client : server.ClientFd session awaiter.rawFd) :
      Owns server worker
        ⟨.recv, awaiter.rawFd, .recvAwaiter frame .awaited⟩

/-- Every receive that is awaited is one from the client of the session, and
every request is the worker's own. -/
structure OwnRequests (server : Server) : Prop where
  clients : ∀ frame thread session sessionId awaiter,
    server.frames.cell frame =
      some ⟨thread, .handleSession session sessionId awaiter⟩ →
    server.ClientFd session awaiter.rawFd
  requests : ∀ worker request,
    (server.workers worker).ioUring.Requested request →
    server.Owns worker request

theorem RingsMatch.receives_again (matched : RingsMatch server)
    (sessions : SessionsKept server) (started : server.Started worker)
    (next : (server.workers worker).ioUring.cq = cqe :: rest)
    (carries : cqe.userData = some (.recvAwaiter frame .awaited))
    (suspended : server.frames.cell frame =
      some ⟨worker, .handleSession session sessionId awaiter⟩)
    (success : 0 < cqe.res) (generated : SessionId) :
    ∃ rawFd, server.ClientFd session rawFd ∧
      ((server.setWorker worker ((server.workers worker).seen cqe
        rest)).dispatchCqe worker cqe generated).frames.cell frame =
        some ⟨worker, .handleSession session sessionId
          { rawFd, sqeData := { coroutine := some frame } }⟩ := by
  obtain ⟨address, resumed, delivery⟩ := matched.deliver started next
  rw [delivery.resumes]
  have same := carries.symm.trans delivery.carries
  have awaits := delivery.awaits
  cases same
  obtain rfl := awaits.frame_eq rfl
  obtain ⟨contents, rawFd, found, client⟩ :=
    sessions.found (sessions.handled _ _ _ _ _ suspended)
  refine ⟨rawFd, ⟨contents, found, client⟩, ?_⟩
  rw [delivered_recv suspended]
  have stored : ((server.setWorker worker ((server.workers worker).seen cqe
      rest)).suspendAt worker frame (.handleSession session sessionId
        (awaiter.store cqe.res cqe.flags))).frames.cell frame =
      some ⟨worker, .handleSession session sessionId
        (awaiter.store cqe.res cqe.flags)⟩ := by
    rw [suspendAt_self, setWorker_threadOf, threadOf_stored suspended]
  have found' : ((server.setWorker worker ((server.workers worker).seen cqe
      rest)).suspendAt worker frame (.handleSession session sessionId
        (awaiter.store cqe.res cqe.flags))).session session = some contents :=
    found
  generalize (server.setWorker worker _).suspendAt worker frame _ = taken at *
  simp only [Server.resume, stored]
  rw [resumeHandleSession_received found' client rfl success, awaitRecv,
    suspendAt_self]
  exact congrArg (fun thread => some (Frame.mk thread _))
    (threadOf_stored stored)

/-! What each step does to them. -/

theorem SessionStep.clientFd {label : Label} {rawFd : RawFd}
    (stepped : SessionStep before label after)
    (sessions : SessionsKept before)
    (client : before.ClientFd session rawFd) :
    after.ClientFd session rawFd := by
  obtain ⟨contents, found, isClient⟩ := client
  cases stepped with
  | unchanged none sweepless manager handles =>
      refine ⟨contents, ?_, isClient⟩
      rw [session_congr manager]
      exact found
  | connected dispatches connection manager cells =>
      exact ⟨contents, (sessions.joined manager).2 session contents found,
        isClient⟩
  | ended none sweepless handled manager handles =>
      refine ⟨_, sessions.left handled manager found, ?_⟩
      split
      · exact isClient
      · exact isClient
  | swept cleanup visits counted manager frames =>
      exact ⟨contents, sessions.swept manager found, isClient⟩

theorem Server.Owns.persists (owns : before.Owns worker request)
    (clients : ∀ session rawFd, before.ClientFd session rawFd →
      after.ClientFd session rawFd)
    (listening : (after.workers worker).listening =
      (before.workers worker).listening)
    (handlers : ∀ frame thread session sessionId awaiter,
      request.userData = .recvAwaiter frame .awaited →
      before.frames.cell frame =
        some ⟨thread, .handleSession session sessionId awaiter⟩ →
      after.frames.cell frame =
        some ⟨thread, .handleSession session sessionId awaiter⟩) :
    after.Owns worker request := by
  cases owns with
  | accept listens => exact .accept (listening.trans listens)
  | recv suspended client =>
      exact .recv (handlers _ _ _ _ _ rfl suspended) (clients _ _ client)

theorem OwnRequests.kept (own : OwnRequests before)
    (clients : ∀ session rawFd, before.ClientFd session rawFd →
      after.ClientFd session rawFd)
    (workers : ∀ worker,
      (after.workers worker).listening = (before.workers worker).listening ∧
        ∀ request, (after.workers worker).ioUring.Requested request →
          (before.workers worker).ioUring.Requested request)
    (cells : after.frames.cell = before.frames.cell) : OwnRequests after where
  clients := fun frame thread session sessionId awaiter stored => by
    rw [cells] at stored
    exact clients _ _ (own.clients _ _ _ _ _ stored)
  requests := fun worker request requested => by
    obtain ⟨listening, fewer⟩ := workers worker
    refine (own.requests worker request (fewer request requested)).persists
      clients listening fun frame thread session sessionId awaiter _ stored =>
        ?_
    rw [cells]
    exact stored

theorem OwnRequests.setWorker (own : OwnRequests server) {contents : Worker}
    (listening : contents.listening = (server.workers worker).listening)
    (fewer : ∀ request, contents.ioUring.Requested request →
      (server.workers worker).ioUring.Requested request) :
    OwnRequests (server.setWorker worker contents) := by
  refine own.kept (fun _ _ client => client) ?_ rfl
  exact setWorker_forall worker contents
    (fun other contents =>
      contents.listening = (server.workers other).listening ∧
        ∀ request, contents.ioUring.Requested request →
          (server.workers other).ioUring.Requested request)
    ⟨listening, fewer⟩ fun _ => ⟨rfl, fun _ requested => requested⟩

theorem Worker.complete_requested {contents completed : Worker} {index : Nat}
    {result : KernelResult}
    (completes : contents.complete index result = some completed)
    (requested : completed.ioUring.Requested request) :
    contents.ioUring.Requested request := by
  obtain ⟨answered, -, cases⟩ := Worker.complete_cases completes
  rcases cases with ⟨res, more, -, rfl⟩ | ⟨cqe, buffers, -, -, rfl⟩ |
    ⟨buf, res, -, rfl⟩
  · refine requested.imp_right fun inflight => ?_
    cases more with
    | false => exact List.mem_of_mem_eraseIdx inflight
    | true => exact inflight
  · exact requested.imp_right List.mem_of_mem_eraseIdx
  · exact requested.imp_right List.mem_of_mem_eraseIdx

/-- Nothing asks for the frame any more whose completion was taken. -/
theorem RingsMatch.not_requested (matched : RingsMatch server)
    (next : (server.workers worker).ioUring.cq = cqe :: rest)
    (carries : cqe.userData = some (.recvAwaiter frame .awaited))
    (suspended : server.frames.cell frame =
      some ⟨worker, .handleSession session sessionId awaiter⟩)
    {other : WorkerId}
    (requested : (server.workers other).ioUring.Requested request) :
    request.userData ≠ .recvAwaiter frame .awaited := by
  intro names
  by_cases same : other = worker
  · subst same
    have left : (server.seenRing other rest).Requested request := requested
    have outstanding := left.outstanding
    rw [names] at outstanding
    exact (matched.kept other).not_mem_seen next carries rfl outstanding
  · have outstanding := requested.outstanding
    rw [names] at outstanding
    obtain ⟨resumed, awaits⟩ := matched.awaited other _ outstanding
    obtain rfl := awaits.frame_eq rfl
    obtain ⟨point, stored⟩ := awaits.stored
    cases stored.symm.trans suspended
    exact same rfl

theorem OwnRequests.others (own : OwnRequests before)
    (matched : RingsMatch before)
    (next : (before.workers worker).ioUring.cq = cqe :: rest)
    (carries : cqe.userData = some (.recvAwaiter frame .awaited))
    (suspended : before.frames.cell frame =
      some ⟨worker, .handleSession session sessionId awaiter⟩)
    (clients : ∀ session rawFd, before.ClientFd session rawFd →
      after.ClientFd session rawFd)
    (listening : ∀ other, (after.workers other).listening =
      (before.workers other).listening) {contents : Option Frame}
    (cells : after.frames.cell =
      Function.update before.frames.cell frame contents)
    (other : WorkerId) (request : Request)
    (requested : (before.workers other).ioUring.Requested request) :
    after.Owns other request := by
  refine (own.requests other request requested).persists clients
    (listening other) fun frame' thread session sessionId awaiter names found =>
      ?_
  have different : frame' ≠ frame := by
    intro same
    subst same
    exact matched.not_requested next carries suspended requested names
  rw [cells, Function.update_of_ne different]
  exact found

theorem Server.owns_requests
    (others : ∀ other, other ≠ worker →
      after.workers other = before.workers other)
    (old : ∀ other request, (before.workers other).ioUring.Requested request →
      after.Owns other request)
    (here : ∀ request, (after.workers worker).ioUring.Requested request →
      (before.workers worker).ioUring.Requested request ∨
        after.Owns worker request) :
    ∀ other request, (after.workers other).ioUring.Requested request →
      after.Owns other request := by
  refine workers_forall (fun other contents => ∀ request,
    contents.ioUring.Requested request → after.Owns other request) others
    (fun request requested => ?_) old
  rcases here request requested with earlier | new
  · exact old worker request earlier
  · exact new

/-- Where one frame changes, its handler receives from the client of its
session, and the others as before. -/
theorem OwnRequests.clients_update (own : OwnRequests before)
    (clients : ∀ session rawFd, before.ClientFd session rawFd →
      after.ClientFd session rawFd) {contents : Option Frame}
    (cells : after.frames.cell =
      Function.update before.frames.cell frame contents)
    (new : ∀ thread session sessionId awaiter,
      contents = some ⟨thread, .handleSession session sessionId awaiter⟩ →
      after.ClientFd session awaiter.rawFd) (other : FrameId)
    (thread : WorkerId) (session : SessionPtr) (sessionId : SessionId)
    (awaiter : RecvAwaiter) (stored : after.frames.cell other =
      some ⟨thread, .handleSession session sessionId awaiter⟩) :
    after.ClientFd session awaiter.rawFd := by
  rw [cells] at stored
  by_cases same : other = frame
  · subst same
    rw [Function.update_self] at stored
    exact new _ _ _ _ stored
  · rw [Function.update_of_ne same] at stored
    exact clients _ _ (own.clients _ _ _ _ _ stored)

theorem OwnRequests.dispatch (own : OwnRequests before)
    (matched : RingsMatch before) (sessions : SessionsKept before)
    (started : before.Started worker)
    (next : (before.workers worker).ioUring.cq = cqe :: rest)
    (clients : ∀ session rawFd, before.ClientFd session rawFd →
      after.ClientFd session rawFd)
    (isAfter : ((before.setWorker worker ((before.workers worker).seen cqe
      rest)).dispatchCqe worker cqe generated) = after)
    (dispatched : Dispatched before worker cqe rest generated after) :
    OwnRequests after := by
  have listening : ∀ other, (after.workers other).listening =
      (before.workers other).listening :=
    workers_forall (fun other contents =>
      contents.listening = (before.workers other).listening)
      dispatched.others dispatched.listening fun _ => rfl
  cases dispatched.outcome with
  | refused carries failed ring buffers cells manager =>
      refine own.kept clients (fun other => ⟨listening other, ?_⟩) cells
      refine workers_forall (fun other contents => ∀ request,
        contents.ioUring.Requested request →
          (before.workers other).ioUring.Requested request)
        dispatched.others (fun request requested => ?_)
        (fun _ _ requested => requested) other
      rw [ring] at requested
      exact requested
  | accepted carries success ring buffers cells manager =>
      have new : after.ClientFd before.manager.objects.next cqe.res.toNat :=
        ⟨_, (sessions.joined manager).1, rfl⟩
      have old : ∀ other request,
          (before.workers other).ioUring.Requested request →
          after.Owns other request := by
        intro other request requested
        refine (own.requests other request requested).persists clients
          (listening other) fun _ thread session sessionId awaiter _ found => ?_
        rw [cells]
        exact connectedCells_old _ found
      refine ⟨fun frame thread session sessionId awaiter stored => ?_, ?_⟩
      · rw [cells] at stored
        rcases connectedCells_cases _ stored with
          ⟨-, other⟩ | ⟨-, same⟩ | ⟨-, other⟩ | earlier
        · cases other
        · cases same
          exact new
        · cases other
        · exact clients _ _ (own.clients _ _ _ _ _ earlier)
      · refine owns_requests dispatched.others old fun request requested => ?_
        rw [ring] at requested
        refine (IoUring.requested_queueRequest requested).imp_right ?_
        intro isNew
        subst isNew
        have handler := @connectedCells_handler before worker generated
          (.adopt cqe.res.toNat)
        rw [← cells] at handler
        exact Owns.recv handler new
  | @received frame session sessionId awaiter rawFd carries suspended received
      ring buffers cells manager =>
      obtain ⟨rawFd', client, stored⟩ := matched.receives_again sessions started
        next carries suspended received generated
      rw [isAfter, cells, Function.update_self] at stored
      cases stored
      have again : after.ClientFd session rawFd := clients _ _ client
      have old := own.others matched next carries suspended clients listening
        cells
      refine ⟨own.clients_update clients cells ?_, ?_⟩
      · intro thread session' sessionId' awaiter' isNew
        cases isNew
        exact again
      · refine owns_requests dispatched.others old fun request requested => ?_
        rw [ring] at requested
        refine (IoUring.requested_queueRequest requested).imp_right ?_
        intro isNew
        subst isNew
        have handler : after.frames.cell frame = some ⟨worker,
            .handleSession session sessionId
              { rawFd, sqeData := { coroutine := some frame } }⟩ := by
          rw [cells, Function.update_self]
        exact Owns.recv handler again
  | @ended frame session sessionId awaiter carries suspended ended ring buffers
      cells manager =>
      have old := own.others matched next carries suspended clients listening
        cells
      refine ⟨own.clients_update clients cells nofun, ?_⟩
      refine owns_requests dispatched.others old fun request requested => ?_
      rw [ring] at requested
      exact .inl requested

theorem OwnRequests.startWorker (own : OwnRequests server)
    (fresh : server.workers worker = {}) (outcome : InitOutcome) :
    OwnRequests (server.startWorker worker outcome) := by
  have handlers : ∀ frame thread session sessionId awaiter,
      (server.startWorker worker outcome).frames.cell frame =
          some ⟨thread, .handleSession session sessionId awaiter⟩ ↔
        server.frames.cell frame =
          some ⟨thread, .handleSession session sessionId awaiter⟩ :=
    fun _ _ _ _ _ => ⟨startWorker_handler, startWorker_old⟩
  have clients : ∀ session rawFd, server.ClientFd session rawFd →
      (server.startWorker worker outcome).ClientFd session rawFd := by
    intro session rawFd client
    rw [ClientFd, session_congr (startWorker_manager outcome)]
    exact client
  refine ⟨fun frame thread session sessionId awaiter stored => ?_,
    fun other request requested => ?_⟩
  · exact clients _ _ (own.clients _ _ _ _ _ ((handlers ..).mp stored))
  · by_cases same : other = worker
    · subst same
      cases startWorker_started fresh outcome with
      | failed fails ring listening buffers dispatched =>
          rw [ring] at requested
          rcases requested with queued | inflight
          · cases queued
          · cases inflight
      | ready succeeds file ring listening buffers dispatched =>
          rw [ring] at requested
          rcases requested with queued | inflight
          · cases List.mem_singleton.mp queued
            exact .accept listening
          · cases inflight
    · have others := @startWorker_other server worker other outcome same
      rw [others] at requested
      refine (own.requests other request requested).persists clients
        (congrArg Worker.listening others) ?_
      exact fun _ _ _ _ _ _ found => (handlers ..).mpr found

theorem OwnRequests.step {label : Label} (own : OwnRequests before)
    (reachable : serverSystem.Reachable before)
    (step : before.step label = some after) : OwnRequests after := by
  have matched := ringsMatch_of_reachable reachable
  have sessions := sessionsKept_of_reachable reachable
  have clients : ∀ session rawFd, before.ClientFd session rawFd →
      after.ClientFd session rawFd := fun _ _ =>
    (SessionStep.of_step reachable step).clientFd sessions
  cases (step_cases step).2 with
  | start unstarted =>
      exact own.startWorker (matched.unstarted _ (not_not.mpr unstarted)) _
  | submit looping =>
      refine own.setWorker rfl fun request requested => ?_
      rcases requested with queued | inflight
      · cases queued
      · exact (List.mem_append.mp inflight).symm
  | submitFails looping => exact own.setWorker rfl fun _ requested => requested
  | wake waiting present => exact own.setWorker rfl fun _ requested => requested
  | dispatch dispatching next =>
      exact own.dispatch matched sessions
        (started_of_phase dispatching Phase.noConfusion) next clients rfl
        (dispatched_of_reachable reachable dispatching next _)
  | endBatch dispatching empty =>
      exact own.setWorker rfl fun _ requested => requested
  | complete completed =>
      refine own.setWorker ?_ fun _ => Worker.complete_requested completed
      exact congrArg (Option.map SocketServer.file)
        (Worker.complete_same completed).2.1
  | cleanup swept =>
      exact own.kept clients (fun _ => ⟨rfl, fun _ requested => requested⟩) rfl
  | tick =>
      exact own.kept clients (fun _ => ⟨rfl, fun _ requested => requested⟩) rfl

theorem ownRequests_of_reachable (reachable : serverSystem.Reachable server) :
    OwnRequests server := by
  refine TransitionSystem.Invariant.of_reachable OwnRequests ?_ ?_ _ reachable
  · intro server start
    cases start
    refine ⟨nofun, fun worker request requested => ?_⟩
    rcases requested with queued | inflight
    · cases queued
    · cases inflight
  · intro before label after reached own step
    exact own.step reached step

/-- The server asks the kernel for connections and for what its clients send,
each worker for its own, and for nothing else. -/
theorem requests_are_own (reachable : serverSystem.Reachable server)
    (requested : (server.workers worker).ioUring.Requested request) :
    server.Owns worker request :=
  (ownRequests_of_reachable reachable).requests worker request requested

/-- A client is connected and its first receive is queued. -/
def oneConnects : List Label :=
  [.start 0 ⟨0, none, 0, some 3, 0⟩, .submit 0,
    .complete 0 0 (.accepted 7 true), .wake 0, .dispatch 0 "id"]

theorem one_connects_receives :
    ∃ last, TransitionSystem.runLabels Server.step {} oneConnects =
        some last ∧
      last.Owns 0 ⟨.multishotAccept, 3, .acceptGuard 0⟩ ∧
      last.Owns 0 ⟨.recv, 7, .recvAwaiter 3 .awaited⟩ := by
  have run : ∃ last, TransitionSystem.runLabels Server.step {} oneConnects =
      some last ∧
      (last.workers 0).ioUring.inflight =
        [⟨.multishotAccept, 3, .acceptGuard 0⟩] ∧
      (last.workers 0).ioUring.sq = [⟨.recv, 7, .recvAwaiter 3 .awaited⟩] :=
    ⟨_, rfl, rfl, rfl⟩
  obtain ⟨last, run, inflight, queued⟩ := run
  have reachable : serverSystem.Reachable last :=
    (TransitionSystem.Execution.runLabels run).reachable rfl
  refine ⟨last, run, requests_are_own reachable (.inr ?_),
    requests_are_own reachable (.inl ?_)⟩
  · rw [inflight]
    exact .head _
  · rw [queued]
    exact .head _

end CoUring
