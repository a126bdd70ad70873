import CoUring.Server.Confinement

namespace CoUring

open Foundation Server

variable {origin server : Server} {worker : WorkerId} {frame : FrameId}
  {session : SessionPtr} {sessionId : SessionId} {address : SqeAddr}
  {half : WorkerId → Option Cqe} {cqe : Cqe}

/-! A worker is half through a completion when it has stored the result and
not resumed the coroutine yet. What others do meanwhile does not depend on
it. -/

/-- The `sqe_data` at an address with the result of a half taken
completion. -/
def SqeData.ahead (data : SqeData) (address : SqeAddr) :
    Option Cqe → SqeData
  | none => data
  | some cqe =>
      if cqe.userData = some address then data.store cqe.res cqe.flags
      else data

def Frame.ahead (frame : FrameId) (contents : Frame)
    (half : Option Cqe) : Frame :=
  match contents.point with
  | .handleSession session sessionId awaiter =>
      ⟨contents.thread, .handleSession session sessionId { awaiter with
        sqeData := awaiter.sqeData.ahead (.recvAwaiter frame .awaited)
          half }⟩
  | .sendData session awaiter =>
      ⟨contents.thread, .sendData session { awaiter with
        sqeData := awaiter.sqeData.ahead (.sendAwaiter frame) half }⟩
  | _ => contents

def SocketServer.ahead (worker : WorkerId) (socketServer : SocketServer)
    (half : Option Cqe) : SocketServer :=
  { socketServer with
    multishotAcceptGuard :=
      socketServer.multishotAcceptGuard.map fun acceptGuard =>
        { acceptGuard with
          sqeData := acceptGuard.sqeData.ahead (.acceptGuard worker) half } }

def IoUring.emptied (ring : IoUring) : IoUring := { ring with cq := [] }

def Worker.emptied (contents : Worker) : Worker :=
  { contents with ioUring := contents.ioUring.emptied, dispatched := [] }

def Worker.ahead (worker : WorkerId) (contents : Worker)
    (half : Option Cqe) : Worker :=
  { contents.emptied with
    socketServer :=
      contents.socketServer.map fun socketServer =>
        socketServer.ahead worker half }

/-- The server without its completions, and with the results of those that
some workers are half through. -/
def Server.ahead (server : Server) (half : WorkerId → Option Cqe) : Server :=
  { server with
    frames := server.frames.map fun frame contents =>
      contents.ahead frame (half contents.thread)
    workers := fun worker =>
      (server.workers worker).ahead worker (half worker) }

theorem SqeData.ahead_other (data : SqeData) {other : SqeAddr}
    (carries : cqe.userData = some address) (different : other ≠ address) :
    data.ahead other (some cqe) = data := by
  rw [SqeData.ahead, carries, if_neg]
  intro same
  exact different (Option.some.inj same).symm

theorem SqeData.ahead_carries (data : SqeData)
    (carries : cqe.userData = some address) :
    data.ahead address (some cqe) = data.store cqe.res cqe.flags :=
  if_pos carries

@[simp] theorem SqeData.ahead_coroutine (data : SqeData)
    (address : SqeAddr) (half : Option Cqe) :
    (data.ahead address half).coroutine = data.coroutine := by
  cases half with
  | none => rfl
  | some cqe =>
      simp only [SqeData.ahead]
      split <;> rfl

@[simp] theorem Frame.ahead_thread (frame : FrameId) (contents : Frame)
    (half : Option Cqe) :
    (contents.ahead frame half).thread = contents.thread := by
  unfold Frame.ahead
  split <;> rfl

@[simp] theorem Frame.ahead_none (frame : FrameId) (contents : Frame) :
    contents.ahead frame none = contents := by
  obtain ⟨thread, point⟩ := contents
  cases point <;> rfl

/-- A completion that carries another address does not show in the frame. -/
theorem Frame.ahead_other (contents : Frame)
    (carries : cqe.userData = some address)
    (recv : .recvAwaiter frame .awaited ≠ address)
    (send : .sendAwaiter frame ≠ address) :
    contents.ahead frame (some cqe) = contents := by
  obtain ⟨thread, point⟩ := contents
  cases point with
  | acceptClients => rfl
  | handleSession session sessionId awaiter =>
      simp [Frame.ahead, SqeData.ahead_other _ carries recv]
  | handleClientSession session sessionId callee => rfl
  | sendData session awaiter =>
      simp [Frame.ahead, SqeData.ahead_other _ carries send]
  | spawnLambda awaitable => rfl

@[simp] theorem SocketServer.ahead_none (worker : WorkerId)
    (socketServer : SocketServer) :
    socketServer.ahead worker none = socketServer := by
  obtain ⟨file, acceptGuard⟩ := socketServer
  cases acceptGuard <;> rfl

@[simp] theorem Worker.ahead_none (worker : WorkerId) (contents : Worker) :
    contents.ahead worker none = contents.emptied := by
  simp [Worker.ahead, Worker.emptied]

theorem Worker.ahead_other (contents : Worker)
    (carries : cqe.userData = some address)
    (accept : .acceptGuard worker ≠ address) :
    contents.ahead worker (some cqe) = contents.emptied := by
  have unchanged : ∀ socketServer : SocketServer,
      socketServer.ahead worker (some cqe) = socketServer := by
    intro socketServer
    obtain ⟨file, acceptGuard⟩ := socketServer
    cases acceptGuard with
    | none => rfl
    | some acceptGuard =>
        simp [SocketServer.ahead, SqeData.ahead_other _ carries accept]
  simp [Worker.ahead, Worker.emptied, unchanged]

@[simp] theorem IoUring.emptied_queueRequest (ring : IoUring)
    (request : Request) :
    ring.emptied.queueRequest request =
      (ring.queueRequest request).emptied := by
  by_cases room : ring.sq.length < IoUring.queueSize
  · rw [ring.queueRequest_room request room]
    exact ring.emptied.queueRequest_room request room
  · rw [ring.queueRequest_full request room]
    exact ring.emptied.queueRequest_full request room

theorem MultishotAcceptGuard.awaitSuspend_emptied
    (acceptGuard : MultishotAcceptGuard) (ring : IoUring)
    (address : SqeAddr) (frame : FrameId) :
    acceptGuard.awaitSuspend ring.emptied address frame =
      ((acceptGuard.awaitSuspend ring address frame).1,
        (acceptGuard.awaitSuspend ring address frame).2.emptied) := by
  unfold awaitSuspend
  dsimp only
  split
  · rw [IoUring.submitMultishotAcceptRequest, IoUring.emptied_queueRequest]
    rfl
  · rfl

theorem Server.initStages_emptied (outcome : InitOutcome)
    (contents : Worker) :
    initStages outcome contents.emptied =
      ((initStages outcome contents).1.emptied,
        (initStages outcome contents).2) := by
  obtain ⟨queueInit, mmapErrno, registered, bound, listened⟩ := outcome
  by_cases failed : queueInit < 0
  · simp [initStages, failed]
  by_cases refused :
      (contents.buffers.app.registerBufRing mmapErrno registered).1 = 0
  · cases bound with
    | none => simp [initStages, failed, refused, Worker.emptied]
    | some rawFd =>
        by_cases listens : listened = 0
        · simp [initStages, failed, refused, listens, Worker.emptied]
        · simp [initStages, failed, refused, listens, Worker.emptied]
  · simp [initStages, failed, refused, Worker.emptied]

namespace Server

theorem cell_ahead (frame : FrameId) :
    (server.ahead half).frames.cell frame =
      (server.frames.cell frame).map fun contents =>
        contents.ahead frame (half contents.thread) := rfl

@[simp] theorem next_ahead :
    (server.ahead half).frames.next = server.frames.next := rfl

@[simp] theorem session_ahead :
    (server.ahead half).session session = server.session session := rfl

@[simp] theorem manager_ahead :
    (server.ahead half).manager = server.manager := rfl

@[simp] theorem vectors_ahead :
    (server.ahead half).vectors = server.vectors := rfl

@[simp] theorem clock_ahead :
    (server.ahead half).clock = server.clock := rfl

theorem threadOf_ahead :
    (server.ahead half).threadOf worker frame =
      server.threadOf worker frame := by
  rw [threadOf, threadOf, cell_ahead]
  cases server.frames.cell frame with
  | none => rfl
  | some contents => simp

theorem workers_ahead (quiet : half worker = none) :
    (server.ahead half).workers worker =
      (server.workers worker).emptied := by
  show (server.workers worker).ahead worker (half worker) = _
  rw [quiet, Worker.ahead_none]

theorem setWorker_ahead (contents : Worker) :
    (server.setWorker worker contents).ahead half =
      (server.ahead half).setWorker worker
        (contents.ahead worker (half worker)) := by
  simp only [Server.ahead, setWorker, Server.mk.injEq, true_and, and_true]
  funext other
  by_cases same : other = worker
  · subst same
    simp
  · simp [same]

theorem setIoUring_ahead (quiet : half worker = none) (ring : IoUring) :
    (server.setIoUring worker ring).ahead half =
      (server.ahead half).setIoUring worker ring.emptied := by
  rw [setIoUring, setWorker_ahead, quiet, Worker.ahead_none, setIoUring,
    workers_ahead quiet]
  rfl

theorem setBuffers_ahead (quiet : half worker = none)
    (buffers : ProvidedBuffers) :
    (server.setBuffers worker buffers).ahead half =
      (server.ahead half).setBuffers worker buffers := by
  rw [setBuffers, setWorker_ahead, quiet, Worker.ahead_none, setBuffers,
    workers_ahead quiet]
  rfl

theorem buffers_ahead :
    ((server.ahead half).workers worker).buffers =
      (server.workers worker).buffers := rfl

@[simp] theorem setManager_ahead (manager : SessionManager) :
    (server.setManager manager).ahead half =
      (server.ahead half).setManager manager := rfl

@[simp] theorem allocateFrame_ahead : server.allocateFrame.ahead half =
    (server.ahead half).allocateFrame := rfl

theorem endFrame_ahead (shared : Option SessionPtr) :
    (server.endFrame frame shared).ahead half =
      (server.ahead half).endFrame frame shared := by
  simp only [Server.ahead, endFrame, Heap.map_free]

end Server

/-! The coroutines of a worker that is half through no completion, innermost
first. -/

namespace Confined

/-- The coroutines that a worker can reach were created on its thread. -/
theorem threadOf (confined : Confined worker origin server)
    (mine : origin.Mine worker frame) :
    server.threadOf worker frame = worker := by
  cases stored : server.frames.cell frame with
  | none => exact threadOf_new stored
  | some contents =>
      rw [threadOf_stored stored]
      rcases confined.created frame contents stored with
        ⟨point, old⟩ | ⟨-, here⟩
      · rcases mine with ⟨point', own⟩ | beyond
        · rw [old] at own
          cases own
          rfl
        · exact absurd (Heap.lt_next old) (Nat.not_lt.mpr beyond)
      · exact here

theorem setBuffers (confined : Confined worker origin server)
    {buffers : ProvidedBuffers}
    (driven : (origin.workers worker).buffers.Driven buffers) :
    Confined worker origin (server.setBuffers worker buffers) :=
  confined.setWorker driven

theorem suspendAt_ahead (confined : Confined worker origin server)
    (mine : origin.Mine worker frame) (quiet : half worker = none)
    (point : FramePoint) :
    (server.suspendAt worker frame point).ahead half =
      (server.ahead half).suspendAt worker frame point := by
  rw [Server.suspendAt, Server.suspendAt, threadOf_ahead,
    confined.threadOf mine]
  simp only [Server.ahead, Heap.map_put, quiet, Frame.ahead_none]

theorem awaitTask_ahead (confined : Confined worker origin server)
    (mine : origin.Mine worker frame) (quiet : half worker = none)
    (callee : FrameId) (point : FramePoint) :
    (server.awaitTask worker frame callee point).ahead half =
      (server.ahead half).awaitTask worker frame callee point := by
  unfold Server.awaitTask
  rw [cell_ahead]
  cases server.frames.cell callee with
  | none => rfl
  | some contents => exact confined.suspendAt_ahead mine quiet point

theorem spawn_ahead (confined : Confined worker origin server)
    (quiet : half worker = none) (callee : FrameId) :
    (server.spawn worker callee).ahead half =
      (server.ahead half).spawn worker callee := by
  rw [Server.spawn,
    confined.allocateFrame.awaitTask_ahead confined.mine quiet]
  rfl

theorem sendData_ahead (confined : Confined worker origin server)
    (quiet : half worker = none) (session : SessionPtr) (storage : Nat) :
    (server.ahead half).sendData worker session storage =
      ((server.sendData worker session storage).1.ahead half,
        (server.sendData worker session storage).2) := by
  have allocated := confined.allocateFrame
  simp only [Server.sendData, ← allocateFrame_ahead, session_ahead,
    next_ahead, vectors_ahead, workers_ahead quiet]
  split
  · rfl
  · split
    next client opened connected =>
      rw [(allocated.setIoUring _).suspendAt_ahead confined.mine quiet,
        setIoUring_ahead quiet]
      simp only [SendAwaiter.awaitSuspend, IoUring.submitSendRequest,
        Worker.emptied, IoUring.emptied_queueRequest]
    · rfl

theorem echo_ahead (confined : Confined worker origin server)
    (quiet : half worker = none) (session : SessionPtr) (storage : Nat) :
    ((server.sendData worker session storage).1.spawn worker
      (server.sendData worker session storage).2).ahead half =
      ((server.ahead half).sendData worker session storage).1.spawn worker
        ((server.ahead half).sendData worker session storage).2 := by
  rw [(confined.sendData session storage).spawn_ahead quiet,
    confined.sendData_ahead quiet]

theorem onRecvData_ahead (confined : Confined worker origin server)
    (quiet : half worker = none) (session : SessionPtr)
    (data : List UInt8) :
    (server.onRecvData worker session data).ahead half =
      (server.ahead half).onRecvData worker session data := by
  have stored := (confined.setManager (server.manager.modifySession session
    fun contents => contents.updateHeartbeat server.clock)).setVectors
      (server.vectors.put server.vectors.next data)
  have echoed := stored.echo_ahead quiet session server.vectors.next
  exact congrArg (fun server' : Server => server'.setVectors
    (server'.vectors.free server.vectors.next)) echoed

theorem awaitRecv_ahead (confined : Confined worker origin server)
    (mine : origin.Mine worker frame) (quiet : half worker = none)
    (socket : File) :
    (server.awaitRecv worker frame session sessionId socket).ahead half =
      (server.ahead half).awaitRecv worker frame session sessionId
        socket := by
  unfold Server.awaitRecv
  dsimp only
  rw [(confined.setIoUring _).suspendAt_ahead mine quiet,
    setIoUring_ahead quiet, workers_ahead quiet]
  simp only [RecvAwaiter.awaitSuspend, IoUring.submitRecvRequest,
    Worker.emptied, IoUring.emptied_queueRequest]

theorem leaveHandleSession_ahead :
    (server.leaveHandleSession frame session sessionId).ahead half =
      (server.ahead half).leaveHandleSession frame session sessionId := by
  rw [Server.leaveHandleSession, endFrame_ahead]
  rfl

theorem handleSessionLoop_ahead (confined : Confined worker origin server)
    (mine : origin.Mine worker frame) (quiet : half worker = none) :
    (server.handleSessionLoop worker frame session sessionId).ahead half =
      (server.ahead half).handleSessionLoop worker frame session
        sessionId := by
  unfold Server.handleSessionLoop
  rw [session_ahead]
  split
  · rfl
  · split
    · exact confined.awaitRecv_ahead mine quiet _
    · exact leaveHandleSession_ahead

theorem handleBuffer_ahead (confined : Confined worker origin server)
    (mine : origin.Mine worker frame) (quiet : half worker = none)
    (bufferId bufferSize : Nat) :
    (server.handleBuffer worker frame session sessionId bufferId
      bufferSize).ahead half =
      (server.ahead half).handleBuffer worker frame session sessionId
        bufferId bufferSize := by
  have borrowed := confined.setBuffers (confined.buffers.borrow bufferId)
  unfold Server.handleBuffer
  dsimp only
  rw [buffers_ahead, ← setBuffers_ahead quiet]
  split
  · exact borrowed.handleSessionLoop_ahead mine quiet
  next data received =>
    have handled := borrowed.onRecvData session data
    have returned := handled.setBuffers (handled.buffers.giveBack bufferId)
    refine (returned.handleSessionLoop_ahead mine quiet).trans ?_
    rw [← borrowed.onRecvData_ahead quiet, buffers_ahead,
      ← setBuffers_ahead quiet]

theorem resumeHandleSession_ahead (confined : Confined worker origin server)
    (mine : origin.Mine worker frame) (quiet : half worker = none)
    (awaited : RecvAwaiter) :
    (server.resumeHandleSession worker frame session sessionId
      awaited).ahead half =
      (server.ahead half).resumeHandleSession worker frame session sessionId
        awaited := by
  unfold Server.resumeHandleSession
  rw [session_ahead]
  split
  · rfl
  · split
    · exact leaveHandleSession_ahead
    · exact confined.handleBuffer_ahead mine quiet _ _

theorem handleSession_ahead (confined : Confined worker origin server)
    (quiet : half worker = none) (session : SessionPtr) :
    (server.ahead half).handleSession worker session =
      ((server.handleSession worker session).1.ahead half,
        (server.handleSession worker session).2) := by
  have shared := confined.allocateFrame.setManager
    (server.manager.share session (.frame server.frames.next))
  unfold Server.handleSession
  simp only [← allocateFrame_ahead, manager_ahead, ← setManager_ahead,
    session_ahead, next_ahead, clock_ahead]
  split
  · rfl
  · refine Prod.ext ?_ rfl
    exact ((shared.setManager _).handleSessionLoop_ahead confined.mine
      quiet).symm

theorem handleClientSession_ahead (confined : Confined worker origin server)
    (quiet : half worker = none) (client : Option File)
    (generated : SessionId) :
    (server.ahead half).handleClientSession worker client generated =
      ((server.handleClientSession worker client generated).1.ahead half,
        (server.handleClientSession worker client generated).2) := by
  have opened := fun manager manager' =>
    (confined.allocateFrame.setManager manager).setManager manager'
  unfold Server.handleClientSession
  simp only [← allocateFrame_ahead, manager_ahead, ← setManager_ahead,
    next_ahead, clock_ahead]
  split
  · rw [endFrame_ahead]
  · split
    · rw [endFrame_ahead]
    next session found =>
      refine Prod.ext ?_ rfl
      refine Eq.symm ((((opened _ _).handleSession session).awaitTask_ahead
        confined.mine quiet _ _).trans ?_)
      rw [(opened _ _).handleSession_ahead quiet]

theorem awaitAccept_ahead (confined : Confined worker origin server)
    (mine : origin.Mine worker frame) (quiet : half worker = none) :
    (server.awaitAccept worker frame).ahead half =
      (server.ahead half).awaitAccept worker frame := by
  unfold Server.awaitAccept
  dsimp only
  rw [workers_ahead quiet]
  have same : (server.workers worker).emptied.socketServer =
      (server.workers worker).socketServer := rfl
  rw [same]
  split
  · rfl
  next socketServer listening =>
    refine (suspendAt_ahead ?_ mine quiet _).trans ?_
    · exact confined.setWorker confined.buffers
    · rw [setWorker_ahead, quiet, Worker.ahead_none]
      simp only [Worker.emptied,
        MultishotAcceptGuard.awaitSuspend_emptied]

theorem acceptClients_ahead (confined : Confined worker origin server)
    (quiet : half worker = none) :
    (server.ahead half).acceptClients worker =
      ((server.acceptClients worker).1.ahead half,
        (server.acceptClients worker).2) := by
  have same : ((server.ahead half).allocateFrame.workers
      worker).socketServer =
        (server.allocateFrame.workers worker).socketServer := by
    rw [← allocateFrame_ahead, workers_ahead quiet]
    rfl
  unfold Server.acceptClients
  dsimp only
  rw [same, next_ahead]
  split
  · rw [endFrame_ahead, allocateFrame_ahead]
  · rw [confined.allocateFrame.awaitAccept_ahead confined.mine quiet,
      allocateFrame_ahead]

theorem resumeAcceptClients_ahead (confined : Confined worker origin server)
    (mine : origin.Mine worker frame) (quiet : half worker = none)
    (generated : SessionId) :
    (server.resumeAcceptClients worker frame generated).ahead half =
      (server.ahead half).resumeAcceptClients worker frame generated := by
  have same : ((server.ahead half).workers worker).socketServer =
      (server.workers worker).socketServer := by
    rw [workers_ahead quiet]
    rfl
  unfold Server.resumeAcceptClients
  rw [same]
  split
  · rfl
  · split
    · exact confined.awaitAccept_ahead mine quiet
    next client accepted =>
      have called := confined.handleClientSession (some client) generated
      dsimp only
      rw [(called.spawn _).awaitAccept_ahead mine quiet,
        called.spawn_ahead quiet, confined.handleClientSession_ahead quiet]

theorem startWorker_ahead (quiet : half worker = none)
    (outcome : InitOutcome) :
    (server.startWorker worker outcome).ahead half =
      (server.ahead half).startWorker worker outcome := by
  have initialized := Confined.refl.setWorker (initStages_driven outcome
    { server.workers worker with phase := .looping })
  have same : { (server.ahead half).workers worker with
        phase := Phase.looping } =
      Worker.emptied { server.workers worker with
        phase := .looping } := by
    rw [workers_ahead quiet]
    rfl
  have entered : (server.ahead half).setWorker worker
        (initStages outcome { (server.ahead half).workers worker with
          phase := Phase.looping }).1 =
      (server.setWorker worker (initStages outcome
        { server.workers worker with phase := .looping }).1).ahead half := by
    rw [setWorker_ahead, quiet, Worker.ahead_none, same, initStages_emptied]
  unfold Server.startWorker
  dsimp only
  rw [entered, same, initStages_emptied]
  split
  · rw [initialized.acceptClients_ahead quiet,
      initialized.acceptClients.spawn_ahead quiet]
  · rfl

theorem resume_ahead (confined : Confined worker origin server)
    (awaits : server.Awaits worker address frame)
    (mine : origin.Mine worker frame) (quiet : half worker = none)
    (generated : SessionId) :
    (server.resume worker frame generated).ahead half =
      (server.ahead half).resume worker frame generated := by
  cases awaits with
  | accept names suspended =>
      simp only [Server.resume, cell_ahead, suspended, Option.map_some,
        quiet, Frame.ahead_none]
      exact confined.resumeAcceptClients_ahead mine quiet generated
  | recv names suspended =>
      simp only [Server.resume, cell_ahead, suspended, Option.map_some,
        quiet, Frame.ahead_none]
      exact confined.resumeHandleSession_ahead mine quiet _
  | send names suspended =>
      simp only [Server.resume, cell_ahead, suspended, Option.map_some,
        quiet, Frame.ahead_none]
      exact endFrame_ahead none

end Confined

/-! Taking a completion in two halves. -/

namespace Server

theorem storeResult_ahead (awaits : server.Awaits worker address frame)
    (quiet : half worker = none) (res : Int) (flags : Nat) :
    (server.storeResult address res flags).ahead half =
      (server.ahead half).storeResult address res flags := by
  cases awaits with
  | accept names suspended =>
      have same : ((server.ahead half).workers worker).socketServer =
          (server.workers worker).socketServer := by
        rw [workers_ahead quiet]
        rfl
      simp only [storeResult]
      rw [same]
      split
      · rw [setWorker_ahead, quiet, Worker.ahead_none, workers_ahead quiet]
        rfl
      · rfl
  | recv names suspended =>
      simp only [storeResult, cell_ahead, suspended, Option.map_some, quiet,
        Frame.ahead_none]
      simp only [Server.ahead, Heap.map_put, quiet, Frame.ahead_none]
  | send names suspended =>
      simp only [storeResult, cell_ahead, suspended, Option.map_some, quiet,
        Frame.ahead_none]
      simp only [Server.ahead, Heap.map_put, quiet, Frame.ahead_none]

/-- Only the coroutines of a worker show what it is half through. -/
theorem frame_half (quiet : half worker = none) (contents : Frame)
    (same : contents.ahead frame (some cqe) = contents) :
    contents.ahead frame (Function.update half worker (some cqe)
      contents.thread) = contents.ahead frame (half contents.thread) := by
  by_cases own : contents.thread = worker
  · rw [own, Function.update_self, quiet, Frame.ahead_none, same]
  · rw [Function.update_of_ne own]

theorem workers_half :
    (server.ahead (Function.update half worker (some cqe))).workers =
      Function.update (server.ahead half).workers worker
        ((server.workers worker).ahead worker (some cqe)) := by
  funext other
  by_cases same : other = worker
  · subst same
    simp [Server.ahead]
  · simp [Server.ahead, same]

theorem ahead_put {contents : Frame}
    (suspended : server.frames.cell frame = some contents)
    (own : contents.thread = worker) (quiet : half worker = none)
    (carries : cqe.userData = some address)
    (lies : address.frame = some frame) :
    { server.ahead half with
      frames := (server.ahead half).frames.put frame
        (contents.ahead frame (some cqe)) } =
      server.ahead (Function.update half worker (some cqe)) := by
  have others : ∀ other stored, other ≠ frame →
      server.frames.cell other = some stored →
      stored.ahead other (Function.update half worker (some cqe)
        stored.thread) = stored.ahead other (half stored.thread) := by
    intro other stored different _
    refine frame_half quiet stored (stored.ahead_other carries ?_ ?_)
    · intro same
      subst same
      exact different (Option.some.inj lies)
    · intro same
      subst same
      exact different (Option.some.inj lies)
  have frames := Heap.put_map suspended others
  rw [own, Function.update_self] at frames
  have workers : (server.ahead half).workers =
      (server.ahead (Function.update half worker (some cqe))).workers := by
    rw [workers_half, Worker.ahead_other _ carries, ← workers_ahead quiet,
      Function.update_eq_self]
    intro same
    subst same
    cases lies
  exact congrArg₂ (fun frames workers =>
    { server.ahead half with frames := frames, workers := workers })
    frames workers

theorem ahead_setWorker (quiet : half worker = none)
    (carries : cqe.userData = some (.acceptGuard worker)) :
    (server.ahead half).setWorker worker
        ((server.workers worker).ahead worker (some cqe)) =
      server.ahead (Function.update half worker (some cqe)) := by
  have frames : (server.ahead half).frames =
      (server.ahead (Function.update half worker (some cqe))).frames :=
    Heap.map_congr fun _ contents _ => (frame_half quiet contents
      (contents.ahead_other carries (by simp) (by simp))).symm
  exact congrArg₂ (fun frames workers =>
    { server.ahead half with frames := frames, workers := workers })
    frames workers_half.symm

theorem ahead_storeResult (awaits : server.Awaits worker address frame)
    (carries : cqe.userData = some address) (quiet : half worker = none) :
    (server.ahead half).storeResult address cqe.res cqe.flags =
      server.ahead (Function.update half worker (some cqe)) := by
  cases awaits with
  | accept names suspended =>
      obtain ⟨acceptGuard, present, named⟩ := Option.bind_eq_some_iff.mp names
      obtain ⟨socketServer, listening, guarded⟩ :=
        Option.bind_eq_some_iff.mp present
      rw [← ahead_setWorker quiet carries]
      simp only [storeResult, workers_ahead quiet, Worker.ahead,
        Worker.emptied, listening, guarded, Option.map_some,
        SocketServer.ahead, SqeData.ahead_carries _ carries,
        MultishotAcceptGuard.store]
  | recv names suspended =>
      rw [← ahead_put suspended rfl quiet carries rfl]
      simp only [storeResult, cell_ahead, suspended, Option.map_some, quiet,
        Frame.ahead_none]
      simp only [Frame.ahead, SqeData.ahead_carries _ carries,
        RecvAwaiter.store]
  | send names suspended =>
      rw [← ahead_put suspended rfl quiet carries rfl]
      simp only [storeResult, cell_ahead, suspended, Option.map_some, quiet,
        Frame.ahead_none]
      simp only [Frame.ahead, SqeData.ahead_carries _ carries,
        SendAwaiter.store]

theorem seen_ahead (rest : List Cqe) :
    (server.setWorker worker
      ((server.workers worker).seen cqe rest)).ahead half =
      server.ahead half := by
  have same : (((server.workers worker).seen cqe rest).ahead worker
      (half worker)) = (server.ahead half).workers worker := rfl
  rw [setWorker_ahead, same, setWorker, Function.update_eq_self]

theorem sqeData_ahead (address : SqeAddr) :
    ((server.ahead half).sqeData address).bind SqeData.coroutine =
      (server.sqeData address).bind SqeData.coroutine := by
  cases address with
  | acceptGuard worker =>
      have shown : ((server.ahead half).workers worker).socketServer =
          (server.workers worker).socketServer.map fun socketServer =>
            socketServer.ahead worker (half worker) := rfl
      simp only [sqeData, shown]
      cases (server.workers worker).socketServer with
      | none => rfl
      | some socketServer =>
          obtain ⟨file, acceptGuard⟩ := socketServer
          cases acceptGuard <;> simp [SocketServer.ahead]
  | recvAwaiter frame slot =>
      cases slot with
      | awaited =>
          simp only [sqeData, cell_ahead]
          cases server.frames.cell frame with
          | none => rfl
          | some contents =>
              obtain ⟨thread, point⟩ := contents
              cases point <;> simp [Frame.ahead]
      | queried => rfl
  | sendAwaiter frame =>
      simp only [sqeData, cell_ahead]
      cases server.frames.cell frame with
      | none => rfl
      | some contents =>
          obtain ⟨thread, point⟩ := contents
          cases point <;> simp [Frame.ahead]

end Server

variable {rest : List Cqe}

theorem Delivery.resume_ahead
    (delivery : Delivery server worker cqe rest address frame)
    (taken : half worker = some cqe) (generated : SessionId) :
    (server.ahead half).resume worker frame generated =
      ((server.setWorker worker ((server.workers worker).seen cqe
        rest)).dispatchCqe worker cqe generated).ahead
          (Function.update half worker none) := by
  have quiet : Function.update half worker none worker = none :=
    Function.update_self _ _ _
  have mine : (server.delivered worker cqe rest address).Mine worker frame :=
    .inl delivery.stored.awaits.stored
  have back : Function.update (Function.update half worker none) worker
      (some cqe) = half := by
    rw [Function.update_idem, ← taken, Function.update_eq_self]
  have both : (server.delivered worker cqe rest address).ahead
      (Function.update half worker none) = server.ahead half := by
    rw [delivered, storeResult_ahead delivery.taken quiet, seen_ahead,
      ahead_storeResult delivery.awaits delivery.carries quiet, back]
  rw [delivery.resumes, Confined.resume_ahead .refl delivery.stored.awaits
    mine quiet, both]

end CoUring
