import CoUring.Foundation.Transition
import CoUring.Io.BufferRing
import CoUring.Session.RecvLoop
import CoUring.Session.SessionManager

namespace CoUring

open Foundation

/-! The server: its workers, the coroutine frames they created, and the one
`SessionManager` they share. Workers take turns between two dispatches of an
event loop; a dispatch runs until the resumed coroutine suspends or ends. -/

/-- Where a coroutine is suspended, with the locals it needs to go on. -/
inductive FramePoint
  | acceptClients
  | handleSession (session : SessionPtr) (sessionId : SessionId)
      (recvAwaiter : RecvAwaiter)
  | handleClientSession (session : SessionPtr) (sessionId : SessionId)
      (handleSession : FrameId)
  | sendData (session : SessionPtr) (sendAwaiter : SendAwaiter)
  | spawnLambda (awaitable : FrameId)
  deriving DecidableEq, Repr

def FramePoint.sharedSession : FramePoint → Option SessionPtr
  | .acceptClients => none
  | .handleSession session _ _ => some session
  | .handleClientSession session _ _ => some session
  | .sendData _ _ => none
  | .spawnLambda _ => none

structure Frame where
  /-- The worker whose thread created the coroutine. -/
  thread : WorkerId
  point : FramePoint
  deriving DecidableEq, Repr

inductive Phase
  | notStarted
  | looping
  /-- Inside `submitAndWait`, which submitted so many requests. -/
  | waiting (submitted : Nat)
  | dispatching
  deriving DecidableEq, Repr

structure InitOutcome where
  queueInit : Int
  mmapErrno : Option Errno
  registered : Int
  bound : Option RawFd
  listened : Int
  deriving DecidableEq, Repr

structure Worker where
  phase : Phase := .notStarted
  ioUring : IoUring := {}
  buffers : ProvidedBuffers := {}
  socketServer : Option SocketServer := none
  /-- The completions the event loop took so far. -/
  dispatched : List Cqe := []

structure Server where
  frames : Heap Frame := .empty
  workers : WorkerId → Worker := fun _ => {}
  manager : SessionManager := {}
  /-- The payload vectors of `OnRecvData`. -/
  vectors : Heap (List UInt8) := .empty
  clock : Nat := 0
  /-- Something that does not exist any more was accessed. -/
  faulted : Bool := false

namespace Server

def setWorker (server : Server) (worker : WorkerId) (contents : Worker) :
    Server :=
  { server with workers := Function.update server.workers worker contents }

def setIoUring (server : Server) (worker : WorkerId) (ring : IoUring) :
    Server :=
  server.setWorker worker { server.workers worker with ioUring := ring }

def setBuffers (server : Server) (worker : WorkerId)
    (buffers : ProvidedBuffers) : Server :=
  server.setWorker worker { server.workers worker with buffers := buffers }

def setManager (server : Server) (manager : SessionManager) : Server :=
  { server with manager := manager }

def setVectors (server : Server) (vectors : Heap (List UInt8)) : Server :=
  { server with vectors := vectors }

def fail (server : Server) : Server := { server with faulted := true }

def session (server : Server) (session : SessionPtr) : Option GameSession :=
  (server.manager.objects.cell session).map SharedSession.session

/-- A frame is created on the thread that runs and stays with it. -/
def threadOf (server : Server) (worker : WorkerId) (frame : FrameId) :
    WorkerId :=
  ((server.frames.cell frame).map Frame.thread).getD worker

def suspendAt (server : Server) (worker : WorkerId) (frame : FrameId)
    (point : FramePoint) : Server :=
  { server with
    frames := server.frames.put frame
      ⟨server.threadOf worker frame, point⟩ }

def allocateFrame (server : Server) : Server :=
  { server with frames := server.frames.reserve }

/-- The running coroutine ends. `final_suspend` does not suspend, so its frame
is destroyed and with it the `shared_ptr` it kept. -/
def endFrame (server : Server) (frame : FrameId)
    (sharedSession : Option SessionPtr) : Server :=
  { server with
    frames := server.frames.free frame
    manager :=
      match sharedSession with
      | none => server.manager
      | some session => server.manager.release session (.frame frame) }

/-- `co_await` on a task: `await_ready` asks the callee whether it is done, and
`await_suspend` keeps no handle to go on with. -/
def awaitTask (server : Server) (worker : WorkerId) (frame callee : FrameId)
    (point : FramePoint) : Server :=
  match server.frames.cell callee with
  | none => server.fail
  | some _ => server.suspendAt worker frame point

def spawn (server : Server) (worker : WorkerId) (callee : FrameId) : Server :=
  server.allocateFrame.awaitTask worker server.frames.next callee
    (.spawnLambda callee)

/-! `GameSession` -/

/-- `GameSession::SendData`; its reference parameter names the vector of its
caller. -/
def sendData (server : Server) (worker : WorkerId) (session : SessionPtr)
    (storage : Nat) : Server × FrameId :=
  let frame := server.frames.next
  let server := server.allocateFrame
  match server.session session with
  | none => (server.fail, frame)
  | some contents =>
      match contents.client, contents.connected with
      | some client, true =>
          let size := ((server.vectors.cell storage).getD []).length
          let suspended := (client.send ⟨storage, size⟩).awaitSuspend
            (server.workers worker).ioUring (.sendAwaiter frame) frame
          ((server.setIoUring worker suspended.2).suspendAt worker frame
            (.sendData session suspended.1), frame)
      | _, _ => (server, frame)

def onRecvData (server : Server) (worker : WorkerId) (session : SessionPtr)
    (data : List UInt8) : Server :=
  let server := server.setManager
    (server.manager.modifySession session fun contents =>
      contents.updateHeartbeat server.clock)
  let storage := server.vectors.next
  let server := server.setVectors (server.vectors.put storage data)
  let called := server.sendData worker session storage
  let server := called.1.spawn worker called.2
  -- the echoed vector is a local of `OnRecvData`
  server.setVectors (server.vectors.free storage)

/-! `SessionManager::HandleSession` -/

def awaitRecv (server : Server) (worker : WorkerId) (frame : FrameId)
    (session : SessionPtr) (sessionId : SessionId) (socket : File) : Server :=
  let suspended := socket.recv.awaitSuspend
    (server.workers worker).ioUring (.recvAwaiter frame .awaited) frame
  (server.setIoUring worker suspended.2).suspendAt worker frame
    (.handleSession session sessionId suspended.1)

def leaveHandleSession (server : Server) (frame : FrameId)
    (session : SessionPtr) (sessionId : SessionId) : Server :=
  (server.setManager
    ((server.manager.modifySession session
      GameSession.onDisconnected).removeSession sessionId)).endFrame frame
    (some session)

def handleSessionLoop (server : Server) (worker : WorkerId) (frame : FrameId)
    (session : SessionPtr) (sessionId : SessionId) : Server :=
  match (server.session session).bind GameSession.client with
  | none => server.fail
  | some socket =>
      if socket.isValid then
        server.awaitRecv worker frame session sessionId socket
      else server.leaveHandleSession frame session sessionId

def handleBuffer (server : Server) (worker : WorkerId) (frame : FrameId)
    (session : SessionPtr) (sessionId : SessionId)
    (bufferId bufferSize : Nat) : Server :=
  let borrowed := (server.workers worker).buffers.borrowBuf bufferId
  let server := server.setBuffers worker borrowed.1
  let server :=
    match recvData borrowed.2 bufferSize with
    | none => server
    | some data =>
        let server := server.onRecvData worker session data
        server.setBuffers worker
          ((server.workers worker).buffers.returnBuf bufferId)
  server.handleSessionLoop worker frame session sessionId

def resumeHandleSession (server : Server) (worker : WorkerId)
    (frame : FrameId) (session : SessionPtr) (sessionId : SessionId)
    (awaited : RecvAwaiter) : Server :=
  match (server.session session).bind GameSession.client with
  | none => server.fail
  | some socket =>
      match recvStep socket awaited with
      | .leave => server.leaveHandleSession frame session sessionId
      | .handle bufferId bufferSize =>
          server.handleBuffer worker frame session sessionId bufferId
            bufferSize

def handleSession (server : Server) (worker : WorkerId)
    (session : SessionPtr) : Server × FrameId :=
  let frame := server.frames.next
  let server := server.allocateFrame
  let server := server.setManager
    (server.manager.share session (.frame frame))
  match server.session session with
  | none => (server.fail, frame)
  | some contents =>
      let server := server.setManager
        (server.manager.modifySession session fun contents =>
          contents.onConnected server.clock)
      (server.handleSessionLoop worker frame session contents.sessionId,
        frame)

/-- `HandleClientSession` up to its `co_await`. -/
def handleClientSession (server : Server) (worker : WorkerId)
    (client : Option File) (generated : SessionId) : Server × FrameId :=
  let frame := server.frames.next
  let server := server.allocateFrame
  match client with
  | none => (server.endFrame frame none, frame)
  | some client =>
      let server := server.setManager
        (server.manager.addSession (some client) generated server.clock)
      match server.manager.getSession generated with
      | none => (server.endFrame frame none, frame)
      | some session =>
          let server := server.setManager
            (server.manager.share session (.frame frame))
          let called := server.handleSession worker session
          (called.1.awaitTask worker frame called.2
            (.handleClientSession session generated called.2), frame)

/-! `Worker` -/

def awaitAccept (server : Server) (worker : WorkerId)
    (frame : FrameId) : Server :=
  let contents := server.workers worker
  match contents.socketServer with
  | none => server.fail
  | some socketServer =>
      let suspended := socketServer.accept.awaitSuspend
        contents.ioUring (.acceptGuard worker) frame
      (server.setWorker worker { contents with
        ioUring := suspended.2
        socketServer := some
          { socketServer with multishotAcceptGuard := some suspended.1 }
        }).suspendAt worker frame .acceptClients

/-- `Worker::accept_clients` up to its first suspension. -/
def acceptClients (server : Server) (worker : WorkerId) : Server × FrameId :=
  let frame := server.frames.next
  let server := server.allocateFrame
  match (server.workers worker).socketServer with
  | none => (server.endFrame frame none, frame)
  | some _ => (server.awaitAccept worker frame, frame)

def resumeAcceptClients (server : Server) (worker : WorkerId)
    (frame : FrameId) (generated : SessionId) : Server :=
  match (server.workers worker).socketServer with
  | none => server.fail
  | some socketServer =>
      match socketServer.accept.awaitResume with
      | none => server.awaitAccept worker frame
      | some client =>
          let called :=
            server.handleClientSession worker (some client) generated
          (called.1.spawn worker called.2).awaitAccept worker frame

def initStages (outcome : InitOutcome) (contents : Worker) : Worker × Bool :=
  if outcome.queueInit < 0 then (contents, false)
  else
    let registered := contents.buffers.app.registerBufRing
      outcome.mmapErrno outcome.registered
    let contents :=
      { contents with
        buffers := { contents.buffers with app := registered.2 } }
    if registered.1 ≠ 0 then (contents, false)
    else
      match outcome.bound with
      | none => (contents, false)
      | some rawFd =>
          if outcome.listened ≠ 0 then (contents, false)
          else
            ({ contents with
              socketServer := some { file := .adopt rawFd } }, true)

/-- `worker_thread_func`: `init`, then `run`, which enters the event loop
whatever became of `init`. -/
def startWorker (server : Server) (worker : WorkerId)
    (outcome : InitOutcome) : Server :=
  let initialized := initStages outcome
    { server.workers worker with phase := .looping }
  let server := server.setWorker worker initialized.1
  if initialized.2 then
    let called := server.acceptClients worker
    called.1.spawn worker called.2
  else server

/-! `IoUring::eventLoop` -/

/-- The `sqe_data` at an address, if the object it belongs to is still
there. -/
def sqeData (server : Server) : SqeAddr → Option SqeData
  | .acceptGuard worker =>
      (server.workers worker).socketServer.bind fun socketServer =>
        socketServer.multishotAcceptGuard.map MultishotAcceptGuard.sqeData
  | .recvAwaiter frame .awaited =>
      match server.frames.cell frame with
      | some ⟨_, .handleSession _ _ awaiter⟩ => some awaiter.sqeData
      | _ => none
  | .recvAwaiter _ .queried => none
  | .sendAwaiter frame =>
      match server.frames.cell frame with
      | some ⟨_, .sendData _ awaiter⟩ => some awaiter.sqeData
      | _ => none

def storeResult (server : Server) (address : SqeAddr) (res : Int)
    (flags : Nat) : Server :=
  match address with
  | .acceptGuard worker =>
      let contents := server.workers worker
      match contents.socketServer with
      | some socketServer =>
          server.setWorker worker { contents with
            socketServer := some { socketServer with
              multishotAcceptGuard :=
                socketServer.multishotAcceptGuard.map
                  fun acceptGuard => acceptGuard.store res flags } }
      | none => server.fail
  | .recvAwaiter frame .awaited =>
      match server.frames.cell frame with
      | some ⟨thread, .handleSession session sessionId awaiter⟩ =>
          { server with
            frames := server.frames.put frame
              ⟨thread, .handleSession session sessionId
                (awaiter.store res flags)⟩ }
      | _ => server.fail
  | .recvAwaiter _ .queried => server.fail
  | .sendAwaiter frame =>
      match server.frames.cell frame with
      | some ⟨thread, .sendData session awaiter⟩ =>
          { server with
            frames := server.frames.put frame
              ⟨thread, .sendData session (awaiter.store res flags)⟩ }
      | _ => server.fail

def resume (server : Server) (worker : WorkerId) (frame : FrameId)
    (generated : SessionId) : Server :=
  match server.frames.cell frame with
  | none => server.fail
  | some contents =>
      match contents.point with
      | .acceptClients => server.resumeAcceptClients worker frame generated
      | .handleSession session sessionId awaiter =>
          server.resumeHandleSession worker frame session sessionId awaiter
      | .handleClientSession session _ _ =>
          server.endFrame frame (some session)
      | .sendData _ _ => server.endFrame frame none
      | .spawnLambda awaitable =>
          -- the lambda's parameter destroys the frame it still names
          match server.frames.cell awaitable with
          | none => server.fail
          | some callee =>
              (server.endFrame awaitable callee.point.sharedSession).endFrame
                frame none

def dispatchCqe (server : Server) (worker : WorkerId) (cqe : Cqe)
    (generated : SessionId) : Server :=
  match cqe.userData with
  | none => server
  | some address =>
      match server.sqeData address with
      | none => server.fail
      | some data =>
          let server := server.storeResult address cqe.res cqe.flags
          match data.coroutine with
          | none => server
          | some frame => server.resume worker frame generated

end Server

/-! The kernel's side of a worker's requests. -/

inductive KernelResult
  /-- A multishot accept posts a descriptor or an error and stays armed or
  not. -/
  | accepted (res : Int) (more : Bool)
  | received (bytes : List UInt8)
  /-- A receive at the end of the stream, with or without a buffer. -/
  | ended (selects : Bool)
  | recvFailed (res : Int)
  | sent (res : Int)
  deriving DecidableEq, Repr

def enobufs : Int := 105

/-- The completion of a receive and the buffers after it. The kernel reports
`ENOBUFS` only when it has no buffer to select. -/
def ProvidedBuffers.completeRecv (buffers : ProvidedBuffers)
    (address : SqeAddr) : KernelResult → Option (Cqe × ProvidedBuffers)
  | .received bytes =>
      if bytes ≠ [] ∧ bytes.length ≤ IoUring.bufSize then
        buffers.select.map fun (bufferId, selected) =>
          (⟨some address, bytes.length, bufferFlags bufferId⟩,
            selected.fill bufferId bytes)
      else none
  | .ended false => some (⟨some address, 0, 0⟩, buffers)
  | .ended true =>
      buffers.select.map fun (bufferId, selected) =>
        (⟨some address, 0, bufferFlags bufferId⟩, selected)
  | .recvFailed res =>
      if res < 0 ∧ (res = -enobufs → buffers.select = none) then
        some (⟨some address, res, 0⟩, buffers)
      else none
  | .accepted _ _ => none
  | .sent _ => none

def Worker.complete (worker : Worker) (index : Nat)
    (result : KernelResult) : Option Worker :=
  (worker.ioUring.inflight[index]?).bind fun request =>
    match request.operation with
    | .multishotAccept =>
        match result with
        | .accepted res more =>
            some { worker with
              ioUring := { worker.ioUring with
                inflight :=
                  if more then worker.ioUring.inflight
                  else worker.ioUring.inflight.eraseIdx index
                cq := worker.ioUring.cq ++
                  [⟨some request.userData, res, moreFlags more⟩] } }
        | _ => none
    | .recv =>
        (worker.buffers.completeRecv request.userData result).map
          fun (cqe, buffers) =>
            { worker with
              buffers := buffers
              ioUring := { worker.ioUring with
                inflight := worker.ioUring.inflight.eraseIdx index
                cq := worker.ioUring.cq ++ [cqe] } }
    | .send buf =>
        match result with
        | .sent res =>
            if res ≤ buf.size then
              some { worker with
                ioUring := { worker.ioUring with
                  inflight := worker.ioUring.inflight.eraseIdx index
                  cq := worker.ioUring.cq ++
                    [⟨some request.userData, res, 0⟩] } }
            else none
        | _ => none

/-! One step of the server. -/

inductive Label
  | start (worker : WorkerId) (outcome : InitOutcome)
  | submit (worker : WorkerId)
  | submitFails (worker : WorkerId)
  | wake (worker : WorkerId)
  /-- Take the next completion; `generated` is the id `GenerateSessionId` makes
  should a session be added. -/
  | dispatch (worker : WorkerId) (generated : SessionId)
  | endBatch (worker : WorkerId)
  | complete (worker : WorkerId) (index : Nat) (result : KernelResult)
  /-- Some thread calls `CleanupExpiredSessions`: the order in which it visits
  the map, and the reading each `IsExpired` takes. -/
  | cleanup (order : List SessionEntry) (readings : List Nat)
  | tick (elapsed : Nat)
  deriving DecidableEq, Repr

namespace Worker

def submit (worker : Worker) : Worker :=
  { worker with
    phase := .waiting worker.ioUring.sq.length
    ioUring := { worker.ioUring with
      sq := []
      inflight := worker.ioUring.inflight ++ worker.ioUring.sq } }

/-- `if (!result) continue;` -/
def wake (worker : Worker) (result : Nat) : Worker :=
  { worker with phase := if result = 0 then .looping else .dispatching }

def seen (worker : Worker) (cqe : Cqe) (rest : List Cqe) : Worker :=
  { worker with
    ioUring := { worker.ioUring with cq := rest }
    dispatched := worker.dispatched ++ [cqe] }

end Worker

namespace Server

def perform (server : Server) : Label → Option Server
  | .start worker outcome =>
      if (server.workers worker).phase = .notStarted then
        some (server.startWorker worker outcome)
      else none
  | .submit worker =>
      let contents := server.workers worker
      if contents.phase = .looping then
        some (server.setWorker worker contents.submit)
      else none
  | .submitFails worker =>
      let contents := server.workers worker
      if contents.phase = .looping then
        some (server.setWorker worker { contents with phase := .dispatching })
      else none
  | .wake worker =>
      let contents := server.workers worker
      match contents.phase with
      | .waiting submitted =>
          if contents.ioUring.cq = [] then none
          else some (server.setWorker worker (contents.wake submitted))
      | _ => none
  | .dispatch worker generated =>
      let contents := server.workers worker
      if contents.phase = .dispatching then
        match contents.ioUring.cq with
        | [] => none
        | cqe :: rest =>
            some ((server.setWorker worker
              (contents.seen cqe rest)).dispatchCqe worker cqe generated)
      else none
  | .endBatch worker =>
      let contents := server.workers worker
      if contents.phase = .dispatching ∧ contents.ioUring.cq = [] then
        some (server.setWorker worker { contents with phase := .looping })
      else none
  | .complete worker index result =>
      ((server.workers worker).complete index result).map
        (server.setWorker worker)
  | .cleanup order readings =>
      if order.Perm server.manager.sessions.entries ∧
          readings.length = order.length ∧
          (server.clock :: readings).Pairwise (· ≤ ·) then
        some { server with
          manager := server.manager.cleanupExpiredSessions order readings
          clock := readings.getLast?.getD server.clock }
      else none
  | .tick elapsed => some { server with clock := server.clock + elapsed }

/-- Nothing is promised after a fault. -/
def step (server : Server) (label : Label) : Option Server :=
  if server.faulted then none else server.perform label

end Server

def serverSystem : TransitionSystem Server Label :=
  .ofFunction (· = {}) Server.step

end CoUring
