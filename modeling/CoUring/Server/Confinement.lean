import CoUring.Server.EchoMachine

namespace CoUring

open Foundation Server

variable {origin server after : Server} {worker : WorkerId}
  {frame : FrameId} {session : SessionPtr} {sessionId : SessionId}

/-! What the coroutines that run on one worker can reach. -/

/-- Calls made on one worker's `BufferRing`. -/
inductive ProvidedBuffers.Driven (buffers : ProvidedBuffers) :
    ProvidedBuffers → Prop
  | refl : Driven buffers buffers
  | register {last : ProvidedBuffers} (earlier : Driven buffers last)
      (mmapErrno : Option Errno) (registered : Int) :
      Driven buffers { last with
        app := (last.app.registerBufRing mmapErrno registered).2 }
  | borrow {last : ProvidedBuffers} (earlier : Driven buffers last)
      (bufferId : Nat) : Driven buffers (last.borrowBuf bufferId).1
  | giveBack {last : ProvidedBuffers} (earlier : Driven buffers last)
      (bufferId : Nat) : Driven buffers (last.returnBuf bufferId)

/-- The frame of a coroutine that the worker created, or that did not exist
yet. -/
def Server.Mine (origin : Server) (worker : WorkerId)
    (frame : FrameId) : Prop :=
  (∃ point, origin.frames.cell frame = some ⟨worker, point⟩) ∨
    origin.frames.next ≤ frame

/-- Between the two states only one worker's coroutines ran: they changed the
worker's own ring and buffers, its own coroutines, and new ones. -/
structure Confined (worker : WorkerId) (origin server : Server) : Prop where
  next : origin.frames.next ≤ server.frames.next
  created : ∀ frame contents, server.frames.cell frame = some contents →
    (∃ point, origin.frames.cell frame = some ⟨contents.thread, point⟩) ∨
      origin.frames.next ≤ frame ∧ contents.thread = worker
  foreign : ∀ frame contents, origin.frames.cell frame = some contents →
    contents.thread ≠ worker → server.frames.cell frame = some contents
  others : ∀ other, other ≠ worker →
    server.workers other = origin.workers other
  buffers : (origin.workers worker).buffers.Driven
    (server.workers worker).buffers

theorem Server.Mine.ne (mine : origin.Mine worker frame) {other : FrameId}
    {contents : Frame} (stored : origin.frames.cell other = some contents)
    (foreign : contents.thread ≠ worker) : other ≠ frame := by
  rintro rfl
  rcases mine with ⟨point, here⟩ | beyond
  · rw [stored] at here
    cases here
    exact foreign rfl
  · exact absurd (Heap.lt_next stored) (Nat.not_lt.mpr beyond)

namespace Confined

theorem refl : Confined worker server server where
  next := Nat.le_refl _
  created := fun _ contents stored => .inl ⟨contents.point, stored⟩
  foreign := fun _ _ stored _ => stored
  others := fun _ _ => rfl
  buffers := .refl

theorem mine (confined : Confined worker origin server) :
    origin.Mine worker server.frames.next :=
  .inr confined.next

theorem congr (confined : Confined worker origin server)
    (next : server.frames.next ≤ after.frames.next)
    (cells : after.frames.cell = server.frames.cell)
    (workers : after.workers = server.workers) :
    Confined worker origin after where
  next := confined.next.trans next
  created := by
    rw [cells]
    exact confined.created
  foreign := by
    rw [cells]
    exact confined.foreign
  others := by
    rw [workers]
    exact confined.others
  buffers := by
    rw [workers]
    exact confined.buffers

theorem fail (confined : Confined worker origin server) :
    Confined worker origin server.fail :=
  confined.congr (Nat.le_refl _) rfl rfl

theorem allocateFrame (confined : Confined worker origin server) :
    Confined worker origin server.allocateFrame :=
  confined.congr (Nat.le_succ _) rfl rfl

theorem setManager (confined : Confined worker origin server)
    (manager : SessionManager) :
    Confined worker origin (server.setManager manager) :=
  confined.congr (Nat.le_refl _) rfl rfl

theorem setVectors (confined : Confined worker origin server)
    (vectors : Heap (List UInt8)) :
    Confined worker origin (server.setVectors vectors) :=
  confined.congr (Nat.le_refl _) rfl rfl

theorem setWorker (confined : Confined worker origin server)
    {contents : Worker} (buffers : (origin.workers worker).buffers.Driven
      contents.buffers) :
    Confined worker origin (server.setWorker worker contents) where
  next := confined.next
  created := confined.created
  foreign := confined.foreign
  others := fun other different =>
    (setWorker_other contents different).trans
      (confined.others other different)
  buffers := by
    rw [setWorker_self]
    exact buffers

theorem setIoUring (confined : Confined worker origin server)
    (ring : IoUring) : Confined worker origin
      (server.setIoUring worker ring) :=
  confined.setWorker confined.buffers

theorem putFrame (confined : Confined worker origin server)
    (mine : origin.Mine worker frame) {thread : WorkerId} {point : FramePoint}
    (belongs : (∃ point, origin.frames.cell frame = some ⟨thread, point⟩) ∨
      origin.frames.next ≤ frame ∧ thread = worker) :
    Confined worker origin
      { server with frames := server.frames.put frame ⟨thread, point⟩ } where
  next := confined.next.trans (Nat.le_max_left _ _)
  created := fun other stored found => by
    rcases Heap.put_cases found with ⟨rfl, rfl⟩ | ⟨-, old⟩
    · exact belongs
    · exact confined.created other stored old
  foreign := fun other stored found different => by
    rw [Heap.cell_put_other _ _ (mine.ne found different)]
    exact confined.foreign other stored found different
  others := confined.others
  buffers := confined.buffers

theorem suspendAt (confined : Confined worker origin server)
    (mine : origin.Mine worker frame) (point : FramePoint) :
    Confined worker origin (server.suspendAt worker frame point) := by
  refine confined.putFrame mine ?_
  cases stored : server.frames.cell frame with
  | some contents =>
      rw [threadOf_stored stored]
      exact confined.created frame contents stored
  | none =>
      rw [threadOf_new stored]
      exact mine.imp_right fun beyond => ⟨beyond, rfl⟩

theorem endFrame (confined : Confined worker origin server)
    (mine : origin.Mine worker frame) (shared : Option SessionPtr) :
    Confined worker origin (server.endFrame frame shared) where
  next := confined.next
  created := fun other contents stored =>
    confined.created other contents (Heap.free_cases stored).2
  foreign := fun other contents found different =>
    (Heap.cell_free_other _ (mine.ne found different)).trans
      (confined.foreign other contents found different)
  others := confined.others
  buffers := confined.buffers

/-! The coroutines, innermost first. -/

theorem awaitTask (confined : Confined worker origin server)
    (mine : origin.Mine worker frame) (callee : FrameId)
    (point : FramePoint) :
    Confined worker origin
      (server.awaitTask worker frame callee point) := by
  unfold Server.awaitTask
  split
  · exact confined.fail
  · exact confined.suspendAt mine point

theorem spawn (confined : Confined worker origin server)
    (callee : FrameId) :
    Confined worker origin (server.spawn worker callee) :=
  confined.allocateFrame.awaitTask confined.mine callee _

theorem sendData (confined : Confined worker origin server)
    (session : SessionPtr) (storage : Nat) :
    Confined worker origin (server.sendData worker session storage).1 := by
  have allocated := confined.allocateFrame
  unfold Server.sendData
  dsimp only
  split
  · exact allocated.fail
  · split
    · exact (allocated.setIoUring _).suspendAt confined.mine _
    · exact allocated

theorem onRecvData (confined : Confined worker origin server)
    (session : SessionPtr) (data : List UInt8) :
    Confined worker origin (server.onRecvData worker session data) := by
  unfold Server.onRecvData
  exact ((((confined.setManager _).setVectors _).sendData session
    server.vectors.next).spawn _).setVectors _

theorem awaitRecv (confined : Confined worker origin server)
    (mine : origin.Mine worker frame) (socket : File) :
    Confined worker origin
      (server.awaitRecv worker frame session sessionId socket) :=
  (confined.setIoUring _).suspendAt mine _

theorem leaveHandleSession (confined : Confined worker origin server)
    (mine : origin.Mine worker frame) :
    Confined worker origin
      (server.leaveHandleSession frame session sessionId) :=
  (confined.setManager _).endFrame mine _

theorem handleSessionLoop (confined : Confined worker origin server)
    (mine : origin.Mine worker frame) :
    Confined worker origin
      (server.handleSessionLoop worker frame session sessionId) := by
  unfold Server.handleSessionLoop
  split
  · exact confined.fail
  · split
    · exact confined.awaitRecv mine _
    · exact confined.leaveHandleSession mine

theorem handleBuffer (confined : Confined worker origin server)
    (mine : origin.Mine worker frame) (bufferId bufferSize : Nat) :
    Confined worker origin (server.handleBuffer worker frame session sessionId
      bufferId bufferSize) := by
  have borrowed : Confined worker origin (server.setBuffers worker
      ((server.workers worker).buffers.borrowBuf bufferId).1) :=
    confined.setWorker (confined.buffers.borrow bufferId)
  unfold Server.handleBuffer
  dsimp only
  split
  · exact borrowed.handleSessionLoop mine
  next data received =>
    have handled := borrowed.onRecvData session data
    exact (handled.setWorker
      (handled.buffers.giveBack bufferId)).handleSessionLoop mine

theorem resumeHandleSession (confined : Confined worker origin server)
    (mine : origin.Mine worker frame) (awaited : RecvAwaiter) :
    Confined worker origin (server.resumeHandleSession worker frame session
      sessionId awaited) := by
  unfold Server.resumeHandleSession
  split
  · exact confined.fail
  · split
    · exact confined.leaveHandleSession mine
    · exact confined.handleBuffer mine _ _

theorem handleSession (confined : Confined worker origin server)
    (session : SessionPtr) :
    Confined worker origin (server.handleSession worker session).1 := by
  have shared := confined.allocateFrame.setManager
    (server.manager.share session (.frame server.frames.next))
  unfold Server.handleSession
  dsimp only
  split
  · exact shared.fail
  · exact (shared.setManager _).handleSessionLoop confined.mine

theorem handleClientSession (confined : Confined worker origin server)
    (client : Option File) (generated : SessionId) :
    Confined worker origin
      (server.handleClientSession worker client generated).1 := by
  have allocated := confined.allocateFrame
  unfold Server.handleClientSession
  dsimp only
  split
  · exact allocated.endFrame confined.mine none
  · split
    · exact (allocated.setManager _).endFrame confined.mine none
    next session found =>
      exact (((allocated.setManager _).setManager _).handleSession
        session).awaitTask confined.mine _ _

theorem awaitAccept (confined : Confined worker origin server)
    (mine : origin.Mine worker frame) :
    Confined worker origin (server.awaitAccept worker frame) := by
  unfold Server.awaitAccept
  dsimp only
  split
  · exact confined.fail
  · refine suspendAt (confined.setWorker ?_) mine _
    exact confined.buffers

theorem acceptClients (confined : Confined worker origin server) :
    Confined worker origin (server.acceptClients worker).1 := by
  unfold Server.acceptClients
  dsimp only
  split
  · exact confined.allocateFrame.endFrame confined.mine none
  · exact confined.allocateFrame.awaitAccept confined.mine

theorem resumeAcceptClients (confined : Confined worker origin server)
    (mine : origin.Mine worker frame) (generated : SessionId) :
    Confined worker origin
      (server.resumeAcceptClients worker frame generated) := by
  unfold Server.resumeAcceptClients
  split
  · exact confined.fail
  · split
    · exact confined.awaitAccept mine
    · exact ((confined.handleClientSession _ generated).spawn _).awaitAccept
        mine

theorem initStages_driven (outcome : InitOutcome) (contents : Worker) :
    contents.buffers.Driven (initStages outcome contents).1.buffers := by
  have registered : contents.buffers.Driven { contents.buffers with
      app := (contents.buffers.app.registerBufRing outcome.mmapErrno
        outcome.registered).2 } :=
    .register .refl _ _
  unfold initStages
  dsimp only
  split
  · exact .refl
  · split
    · exact registered
    · split
      · exact registered
      · split
        · exact registered
        · exact registered

theorem startWorker (outcome : InitOutcome) :
    Confined worker server (server.startWorker worker outcome) := by
  have initialized : Confined worker server (server.setWorker worker
      (initStages outcome
        { server.workers worker with phase := .looping }).1) :=
    Confined.refl.setWorker (initStages_driven outcome
      { server.workers worker with phase := .looping })
  unfold Server.startWorker
  dsimp only
  split
  · exact initialized.acceptClients.spawn _
  · exact initialized

/-! A dispatch: the result is stored in a coroutine of the worker, and this one
goes on. -/

theorem storeResult (confined : Confined worker origin server)
    {address : SqeAddr} (awaits : server.Awaits worker address frame)
    (mine : origin.Mine worker frame) (res : Int) (flags : Nat) :
    Confined worker origin (server.storeResult address res flags) := by
  cases awaits with
  | accept names suspended =>
      unfold Server.storeResult
      dsimp only
      split
      · exact confined.setWorker confined.buffers
      · exact confined.fail
  | recv names suspended =>
      simp only [Server.storeResult, suspended]
      exact confined.putFrame mine (confined.created frame _ suspended)
  | send names suspended =>
      simp only [Server.storeResult, suspended]
      exact confined.putFrame mine (confined.created frame _ suspended)

theorem resume (confined : Confined worker origin server)
    {address : SqeAddr} (awaits : server.Awaits worker address frame)
    (mine : origin.Mine worker frame) (generated : SessionId) :
    Confined worker origin (server.resume worker frame generated) := by
  cases awaits with
  | accept names suspended =>
      simp only [Server.resume, suspended]
      exact confined.resumeAcceptClients mine generated
  | recv names suspended =>
      simp only [Server.resume, suspended]
      exact confined.resumeHandleSession mine _
  | send names suspended =>
      simp only [Server.resume, suspended]
      exact confined.endFrame mine none

theorem dispatch (matched : RingsMatch server) {cqe : Cqe} {rest : List Cqe}
    (started : server.Started worker)
    (next : (server.workers worker).ioUring.cq = cqe :: rest)
    (generated : SessionId) :
    Confined worker server ((server.setWorker worker
      ((server.workers worker).seen cqe rest)).dispatchCqe worker cqe
        generated) := by
  obtain ⟨address, frame, delivery⟩ := matched.deliver started next
  have mine : server.Mine worker frame := .inl delivery.awaits.stored
  have taken : Confined worker server (server.setWorker worker
      ((server.workers worker).seen cqe rest)) := refl.setWorker .refl
  rw [delivery.resumes]
  exact (taken.storeResult delivery.taken mine cqe.res cqe.flags).resume
    delivery.stored.awaits mine generated

end Confined

/-! Runs. -/

def Label.runner : Label → Option WorkerId
  | .start worker _ => some worker
  | .submit worker => some worker
  | .submitFails worker => some worker
  | .wake worker => some worker
  | .dispatch worker _ => some worker
  | .endBatch worker => some worker
  | .complete _ _ _ => none
  | .cleanup _ _ => none
  | .tick _ => none

def EchoLabel.runner : EchoLabel → Option WorkerId
  | .server label => label.runner
  | .onRecvData worker _ _ => some worker
  | .executeSend _ _ _ _ => none

def Server.resumed (server : Server) (worker : WorkerId) : Option FrameId :=
  (server.workers worker).ioUring.cq.head?.bind fun cqe =>
    cqe.userData.bind fun address =>
      (server.sqeData address).bind SqeData.coroutine

/-- The coroutine was called while the worker's thread ran. -/
def CreatedBy (history : List (EchoServer × EchoLabel)) (frame : FrameId)
    (worker : WorkerId) : Prop :=
  ∃ taken ∈ history, ∃ next, taken.1.step taken.2 = some next ∧
    taken.2.runner = some worker ∧
    taken.1.server.frames.next ≤ frame ∧ frame < next.server.frames.next

/-- No coroutine ran: neither coroutines nor the application's part of any
buffer ring and any accept guard changed. -/
structure Unattended (before after : Server) : Prop where
  frames : after.frames = before.frames
  borrowed : ∀ worker, (after.workers worker).buffers.app.borrowedBufSet =
    (before.workers worker).buffers.app.borrowedBufSet
  bufRing : ∀ worker, (after.workers worker).buffers.app.bufRing =
    (before.workers worker).buffers.app.bufRing
  socketServer : ∀ worker, (after.workers worker).socketServer =
    (before.workers worker).socketServer

/-- Each worker's ring, buffers and coroutines are driven by its own thread
only. -/
structure WorkersConfined (history : List (EchoServer × EchoLabel))
    (echo : EchoServer) : Prop where
  requests : ∀ worker address, address ∈ echo.server.outstanding worker →
    ∃ frame, echo.server.Awaits worker address frame ∧
      CreatedBy history frame worker
  resumes : ∀ worker generated next,
    echo.step (.server (.dispatch worker generated)) = some next →
    ∃ frame, echo.server.resumed worker = some frame ∧
      CreatedBy history frame worker
  running : ∀ label next worker, echo.step label = some next →
    label.runner = some worker → Confined worker echo.server next.server
  unattended : ∀ label next, echo.step label = some next →
    label.runner = none → Unattended echo.server next.server

theorem Server.Stepped.confined (matched : RingsMatch server) {label : Label}
    (stepped : Stepped server label after)
    (runs : label.runner = some worker) : Confined worker server after := by
  cases stepped with
  | start unstarted =>
      cases runs
      exact .startWorker _
  | dispatch dispatching next =>
      cases runs
      exact .dispatch matched
        (started_of_phase dispatching Phase.noConfusion) next _
  | submit looping =>
      cases runs
      exact Confined.refl.setWorker .refl
  | submitFails looping =>
      cases runs
      exact Confined.refl.setWorker .refl
  | wake waiting present =>
      cases runs
      exact Confined.refl.setWorker .refl
  | endBatch dispatching empty =>
      cases runs
      exact Confined.refl.setWorker .refl
  | complete completed => cases runs
  | cleanup swept => cases runs
  | tick => cases runs

theorem ProvidedBuffers.select_app {buffers left : ProvidedBuffers}
    {bufferId : Nat} (selected : buffers.select = some (bufferId, left)) :
    left.app = buffers.app := by
  unfold select at selected
  split at selected
  · cases selected
  · obtain ⟨-, same⟩ := Option.ite_none_left_eq_some.mp selected
    cases same
    rfl

theorem ProvidedBuffers.completeRecv_app {buffers left : ProvidedBuffers}
    {address : SqeAddr} {result : KernelResult} {cqe : Cqe}
    (completed : buffers.completeRecv address result = some (cqe, left)) :
    left.app.borrowedBufSet = buffers.app.borrowedBufSet ∧
      left.app.bufRing = buffers.app.bufRing := by
  rcases completeRecv_cases completed with
    ⟨bytes, bufferId, selected, -, -, taken, -, rfl⟩ |
      ⟨bufferId, taken, -⟩ | ⟨res, -, -, -, rfl⟩
  · rw [← select_app taken]
    exact ⟨rfl, rfl⟩
  · rw [select_app taken]
    exact ⟨rfl, rfl⟩
  · exact ⟨rfl, rfl⟩

theorem Worker.complete_app {contents next : Worker} {index : Nat}
    {result : KernelResult}
    (completed : contents.complete index result = some next) :
    next.buffers.app.borrowedBufSet = contents.buffers.app.borrowedBufSet ∧
      next.buffers.app.bufRing = contents.buffers.app.bufRing := by
  obtain ⟨request, -, answered⟩ := complete_cases completed
  rcases answered with
    ⟨res, more, -, rfl⟩ | ⟨cqe, buffers, -, received, rfl⟩ | ⟨buf, res, -, rfl⟩
  · exact ⟨rfl, rfl⟩
  · exact ProvidedBuffers.completeRecv_app received
  · exact ⟨rfl, rfl⟩

theorem Server.Stepped.unattended {label : Label}
    (stepped : Stepped server label after) (runs : label.runner = none) :
    Unattended server after := by
  cases stepped with
  | @complete worker index result contents completed =>
      obtain ⟨borrowed, bufRing⟩ := Worker.complete_app completed
      have socket := (Worker.complete_same completed).2.1
      refine ⟨rfl, ?_, ?_, ?_⟩
      · exact setWorker_forall worker contents
          (fun other contents => contents.buffers.app.borrowedBufSet =
            (server.workers other).buffers.app.borrowedBufSet)
          borrowed fun _ => rfl
      · exact setWorker_forall worker contents
          (fun other contents => contents.buffers.app.bufRing =
            (server.workers other).buffers.app.bufRing)
          bufRing fun _ => rfl
      · exact setWorker_forall worker contents
          (fun other contents => contents.socketServer =
            (server.workers other).socketServer)
          socket fun _ => rfl
  | cleanup swept => exact ⟨rfl, fun _ => rfl, fun _ => rfl, fun _ => rfl⟩
  | tick => exact ⟨rfl, fun _ => rfl, fun _ => rfl, fun _ => rfl⟩
  | start unstarted => cases runs
  | dispatch dispatching next => cases runs
  | submit looping => cases runs
  | submitFails looping => cases runs
  | wake waiting present => cases runs
  | endBatch dispatching empty => cases runs

theorem EchoStepped.confined {echo next : EchoServer} {label : EchoLabel}
    (stepped : EchoStepped echo label next) (matched : RingsMatch echo.server)
    (runs : label.runner = some worker) :
    Confined worker echo.server next.server := by
  cases stepped with
  | server silent stepped => exact stepped.confined matched runs
  | onRecvData dispatching connected =>
      cases runs
      exact Confined.refl.onRecvData _ _
  | executeSend executable reads stepped => cases runs

theorem EchoStepped.unattended {echo next : EchoServer} {label : EchoLabel}
    (stepped : EchoStepped echo label next) (runs : label.runner = none) :
    Unattended echo.server next.server := by
  cases stepped with
  | server silent stepped => exact stepped.unattended runs
  | onRecvData dispatching connected => cases runs
  | executeSend executable reads stepped => exact stepped.unattended rfl

variable {first last : EchoServer} {history : List (EchoServer × EchoLabel)}

theorem CreatedBy.later {taken : EchoServer × EchoLabel}
    (created : CreatedBy history frame worker) :
    CreatedBy (history ++ [taken]) frame worker := by
  obtain ⟨earlier, member, rest⟩ := created
  exact ⟨earlier, List.mem_append_left _ member, rest⟩

/-- Every coroutine was created while the thread it belongs to ran. -/
theorem created_of_run (start : echoSystem.initial first)
    (run : echoSystem.Execution first history last) :
    ∀ frame contents, last.server.frames.cell frame = some contents →
      CreatedBy history frame contents.thread := by
  induction run with
  | refl =>
      cases start
      intro frame contents stored
      cases stored
  | @snoc before after history label run step induction =>
      intro frame contents stored
      have matched := echo_ringsMatch (run.reachable start)
      have stepped := EchoServer.step_cases step
      cases runs : label.runner with
      | none =>
          rw [(stepped.unattended runs).frames] at stored
          exact (induction frame contents stored).later
      | some worker =>
          have confined := stepped.confined matched runs
          rcases confined.created frame contents stored with
            ⟨point, earlier⟩ | ⟨new, thread⟩
          · exact (induction frame _ earlier).later
          · refine ⟨(before, label), by simp, after, step, ?_, new,
              Heap.lt_next stored⟩
            rw [runs, thread]

theorem Delivery.resumed {cqe : Cqe} {rest : List Cqe} {address : SqeAddr}
    (delivery : Delivery server worker cqe rest address frame)
    (next : (server.workers worker).ioUring.cq = cqe :: rest) :
    server.resumed worker = some frame := by
  obtain ⟨data, found, named⟩ := delivery.awaits.sqeData_coroutine
  simp [Server.resumed, next, delivery.carries, found, named]

/-- Whatever workers there are and however their steps interleave. -/
theorem workers_confined (start : echoSystem.initial first)
    (run : echoSystem.Execution first history last) :
    WorkersConfined history last := by
  have matched := echo_ringsMatch (run.reachable start)
  have created := created_of_run start run
  have awaited : ∀ {worker address frame},
      last.server.Awaits worker address frame →
      CreatedBy history frame worker := by
    intro worker address frame awaits
    obtain ⟨point, stored⟩ := awaits.stored
    exact created frame _ stored
  refine ⟨?_, ?_, ?_, ?_⟩
  · intro worker address member
    obtain ⟨frame, awaits⟩ := matched.awaited worker address member
    exact ⟨frame, awaits, awaited awaits⟩
  · intro worker generated next step
    cases EchoServer.step_cases step with
    | server silent stepped =>
        cases stepped with
        | dispatch dispatching next =>
            obtain ⟨address, frame, delivery⟩ := matched.deliver
              (started_of_phase dispatching Phase.noConfusion) next
            exact ⟨frame, delivery.resumed next, awaited delivery.awaits⟩
  · intro label next worker step runs
    exact (EchoServer.step_cases step).confined matched runs
  · intro label next step runs
    exact (EchoServer.step_cases step).unattended runs

/-- Two workers accept a connection each, and one of them echoes. -/
def twoWorkers : List EchoLabel :=
  [.server (.start 0 ⟨0, none, 0, some 3, 0⟩),
    .server (.start 1 ⟨0, none, 0, some 4, 0⟩), .server (.submit 0),
    .server (.submit 1), .server (.complete 0 0 (.accepted 7 true)),
    .server (.complete 1 0 (.accepted 8 true)), .server (.wake 1),
    .server (.dispatch 1 "first"), .server (.wake 0),
    .server (.dispatch 0 "second"), .onRecvData 1 0 [1]]

theorem two_workers_confined :
    ∃ last, TransitionSystem.runLabels EchoServer.step {} twoWorkers =
        some last ∧
      last.calls ≠ [] ∧
      WorkersConfined
        (TransitionSystem.traceLabels EchoServer.step {} twoWorkers) last := by
  have run : ∃ last, TransitionSystem.runLabels EchoServer.step {}
      twoWorkers = some last ∧ last.calls ≠ [] := ⟨_, rfl, by simp⟩
  obtain ⟨last, run, calls⟩ := run
  exact ⟨last, run, calls, workers_confined rfl (.runLabels run)⟩

end CoUring
