import CoUring.Server.EchoMachine
import CoUring.Server.Sessions

namespace CoUring

open Foundation Server

variable {origin server before after : Server} {worker : WorkerId}
  {frame : FrameId} {session : SessionPtr} {sessionId : SessionId}

/-! Only `OnRecvData` leads to sends. -/

namespace IoUring

def Requested (ring : IoUring) (request : Request) : Prop :=
  request ∈ ring.sq ∨ request ∈ ring.inflight

structure Silent (before after : IoUring) : Prop where
  requests : ∀ request buf, request.operation = .send buf →
    after.Requested request → before.Requested request
  completions : ∀ cqe frame, cqe.userData = some (.sendAwaiter frame) →
    cqe ∈ after.cq → cqe ∈ before.cq

variable {ring next : IoUring} {request : Request}

namespace Silent

theorem refl : Silent ring ring where
  requests := fun _ _ _ requested => requested
  completions := fun _ _ _ member => member

theorem trans {last : IoUring} (first : Silent ring next)
    (second : Silent next last) : Silent ring last where
  requests := fun request buf isSend requested =>
    first.requests request buf isSend (second.requests request buf isSend
      requested)
  completions := fun cqe frame carries member =>
    first.completions cqe frame carries
      (second.completions cqe frame carries member)

theorem queueRequest (silent : ∀ buf, request.operation ≠ .send buf) :
    Silent ring (ring.queueRequest request) where
  requests := fun other buf isSend requested => by
    by_cases room : ring.sq.length < queueSize
    · rw [queueRequest_room request room] at requested
      refine requested.imp_left fun member => ?_
      rcases List.mem_append.mp member with earlier | added
      · exact earlier
      · rw [List.mem_singleton.mp added] at isSend
        exact absurd isSend (silent buf)
    · rwa [queueRequest_full request room] at requested
  completions := fun _ _ _ member => by
    rwa [queueRequest_cq] at member

theorem submit : Silent ring
    { ring with sq := [], inflight := ring.inflight ++ ring.sq } where
  requests := fun request buf isSend requested => by
    rcases requested with impossible | submitted
    · cases impossible
    · exact (List.mem_append.mp submitted).symm
  completions := fun _ _ _ member => member

theorem seen {cqe : Cqe} {rest : List Cqe} (next : ring.cq = cqe :: rest) :
    Silent ring { ring with cq := rest } where
  requests := fun _ _ _ requested => requested
  completions := fun _ _ _ member => by
    rw [next]
    exact .tail _ member

theorem completed {inflight : List Request} {cqe : Cqe}
    (remaining : ∀ request ∈ inflight, request ∈ ring.inflight)
    (silent : ∀ frame, cqe.userData ≠ some (.sendAwaiter frame)) :
    Silent ring
      { ring with inflight := inflight, cq := ring.cq ++ [cqe] } where
  requests := fun request buf isSend requested =>
    requested.imp_right (remaining request)
  completions := fun other frame carries member => by
    rcases List.mem_append.mp member with earlier | added
    · exact earlier
    · rw [List.mem_singleton.mp added] at carries
      exact absurd carries (silent frame)

end Silent

theorem Kept.send_requested (kept : ring.Kept)
    (outstanding : .sendAwaiter frame ∈ ring.outstanding) :
    (∃ request buf, ring.Requested request ∧
      request.operation = .send buf ∧
      request.userData = .sendAwaiter frame) ∨
    ∃ cqe ∈ ring.cq, cqe.userData = some (.sendAwaiter frame) := by
  have isSend : ∀ request, ring.Requested request →
      request.userData = .sendAwaiter frame →
      ∃ buf, request.operation = .send buf := by
    intro request requested carries
    have fits := kept.fits request requested
    rw [carries] at fits
    cases same : request.operation with
    | send buf => exact ⟨buf, rfl⟩
    | multishotAccept =>
        rw [same] at fits
        cases fits
    | recv =>
        rw [same] at fits
        cases fits
  rcases mem_outstanding.mp outstanding with
    ⟨request, member, carries⟩ | ⟨request, member, carries⟩ |
      ⟨cqe, member, carries⟩
  · obtain ⟨buf, same⟩ := isSend request (.inl member) carries
    exact .inl ⟨request, buf, .inl member, same, carries⟩
  · obtain ⟨buf, same⟩ := isSend request (.inr member) carries
    exact .inl ⟨request, buf, .inr member, same, carries⟩
  · exact .inr ⟨cqe, member, carries⟩

theorem Requested.outstanding (requested : ring.Requested request) :
    request.userData ∈ ring.outstanding :=
  mem_outstanding.mpr (requested.elim
    (fun member => .inl ⟨request, member, rfl⟩)
    fun member => .inr (.inl ⟨request, member, rfl⟩))

theorem requested_queueRequest {added : Request}
    (requested : (ring.queueRequest added).Requested request) :
    ring.Requested request ∨ request = added := by
  by_cases room : ring.sq.length < queueSize
  · rw [queueRequest_room added room] at requested
    rcases requested with queued | inflight
    · exact (List.mem_append.mp queued).imp .inl List.mem_singleton.mp
    · exact .inl (.inr inflight)
  · rw [queueRequest_full added room] at requested
    exact .inl requested

theorem outstanding_of_completed {cqe : Cqe} {address : SqeAddr}
    (member : cqe ∈ ring.cq) (carries : cqe.userData = some address) :
    address ∈ ring.outstanding :=
  mem_outstanding.mpr (.inr (.inr ⟨cqe, member, carries⟩))

theorem Silent.outstanding (silent : Silent ring next) (kept : next.Kept)
    (outstanding : .sendAwaiter frame ∈ next.outstanding) :
    .sendAwaiter frame ∈ ring.outstanding := by
  rcases kept.send_requested outstanding with
    ⟨request, buf, requested, isSend, carries⟩ | ⟨cqe, member, carries⟩
  · rw [← carries]
    exact (silent.requests request buf isSend requested).outstanding
  · exact outstanding_of_completed (silent.completions cqe frame carries
      member) carries

end IoUring

structure Silent (origin server : Server) : Prop where
  vectors : server.vectors = origin.vectors
  next : origin.frames.next ≤ server.frames.next
  rings : ∀ worker, (origin.workers worker).ioUring.Silent
    (server.workers worker).ioUring

namespace Silent

theorem refl : Silent server server where
  vectors := rfl
  next := Nat.le_refl _
  rings := fun _ => .refl

theorem congr (silent : Silent origin server)
    (vectors : after.vectors = server.vectors)
    (next : server.frames.next ≤ after.frames.next)
    (workers : after.workers = server.workers) : Silent origin after where
  vectors := vectors.trans silent.vectors
  next := silent.next.trans next
  rings := by
    rw [workers]
    exact silent.rings

theorem fail (silent : Silent origin server) : Silent origin server.fail :=
  silent.congr rfl (Nat.le_refl _) rfl

theorem allocateFrame (silent : Silent origin server) :
    Silent origin server.allocateFrame :=
  silent.congr rfl (Nat.le_succ _) rfl

theorem setManager (silent : Silent origin server)
    (manager : SessionManager) : Silent origin (server.setManager manager) :=
  silent.congr rfl (Nat.le_refl _) rfl

theorem putFrame (silent : Silent origin server) (contents : Frame) :
    Silent origin
      { server with frames := server.frames.put frame contents } :=
  silent.congr rfl (Nat.le_max_left _ _) rfl

theorem suspendAt (silent : Silent origin server) (point : FramePoint) :
    Silent origin (server.suspendAt worker frame point) :=
  silent.putFrame _

theorem endFrame (silent : Silent origin server)
    (shared : Option SessionPtr) :
    Silent origin (server.endFrame frame shared) :=
  silent.congr rfl (Nat.le_refl _) rfl

theorem setWorker (silent : Silent origin server) {contents : Worker}
    (ring : (server.workers worker).ioUring.Silent contents.ioUring) :
    Silent origin (server.setWorker worker contents) where
  vectors := silent.vectors
  next := silent.next
  rings := setWorker_forall worker contents
    (fun other contents =>
      (origin.workers other).ioUring.Silent contents.ioUring)
    ((silent.rings worker).trans ring) silent.rings

/-! The coroutines, innermost first. -/

theorem awaitTask (silent : Silent origin server) (callee : FrameId)
    (point : FramePoint) :
    Silent origin (server.awaitTask worker frame callee point) := by
  unfold Server.awaitTask
  split
  · exact silent.fail
  · exact silent.suspendAt point

theorem spawn (silent : Silent origin server) (callee : FrameId) :
    Silent origin (server.spawn worker callee) :=
  silent.allocateFrame.awaitTask callee _

theorem awaitRecv (silent : Silent origin server) (socket : File) :
    Silent origin
      (server.awaitRecv worker frame session sessionId socket) :=
  (silent.setWorker (.queueRequest fun _ => Operation.noConfusion)).suspendAt _

theorem leaveHandleSession (silent : Silent origin server) :
    Silent origin (server.leaveHandleSession frame session sessionId) :=
  (silent.setManager _).endFrame _

theorem handleSessionLoop (silent : Silent origin server) :
    Silent origin
      (server.handleSessionLoop worker frame session sessionId) := by
  unfold Server.handleSessionLoop
  split
  · exact silent.fail
  · split
    · exact silent.awaitRecv _
    · exact silent.leaveHandleSession

/-- The receive loop hands nothing over: it asks a fresh awaiter for the size
and gets 0. -/
theorem resumeHandleSession (silent : Silent origin server)
    (awaited : RecvAwaiter) :
    Silent origin (server.resumeHandleSession worker frame session sessionId
      awaited) := by
  unfold Server.resumeHandleSession
  split
  · exact silent.fail
  next socket found =>
    by_cases received : 0 < awaited.sqeData.cqeRes
    · rw [recvStep_handle received]
      simp only [Server.handleBuffer, recvData_zero]
      refine handleSessionLoop (silent.setWorker ?_)
      exact .refl
    · rw [recvStep_leave (not_lt.mp received)]
      exact silent.leaveHandleSession

theorem handleSession (silent : Silent origin server)
    (session : SessionPtr) :
    Silent origin (server.handleSession worker session).1 := by
  have shared := silent.allocateFrame.setManager
    (server.manager.share session (.frame server.frames.next))
  unfold Server.handleSession
  dsimp only
  split
  · exact shared.fail
  · exact (shared.setManager _).handleSessionLoop

theorem handleClientSession (silent : Silent origin server)
    (client : Option File) (generated : SessionId) :
    Silent origin
      (server.handleClientSession worker client generated).1 := by
  have allocated := silent.allocateFrame
  unfold Server.handleClientSession
  dsimp only
  split
  · exact allocated.endFrame none
  · split
    · exact (allocated.setManager _).endFrame none
    next session found =>
      exact (((allocated.setManager _).setManager _).handleSession
        session).awaitTask _ _

theorem awaitAccept (silent : Silent origin server) :
    Silent origin (server.awaitAccept worker frame) := by
  unfold Server.awaitAccept
  dsimp only
  split
  · exact silent.fail
  next socketServer listening =>
    refine suspendAt (silent.setWorker ?_) _
    rcases socketServer.accept.awaitSuspend_ring
        (server.workers worker).ioUring (.acceptGuard worker) frame with
      same | queued
    · rw [same]
      exact .refl
    · rw [queued]
      exact .queueRequest fun _ => Operation.noConfusion

theorem acceptClients (silent : Silent origin server) :
    Silent origin (server.acceptClients worker).1 := by
  unfold Server.acceptClients
  dsimp only
  split
  · exact silent.allocateFrame.endFrame none
  · exact silent.allocateFrame.awaitAccept

theorem resumeAcceptClients (silent : Silent origin server)
    (generated : SessionId) :
    Silent origin (server.resumeAcceptClients worker frame generated) := by
  unfold Server.resumeAcceptClients
  split
  · exact silent.fail
  · split
    · exact silent.awaitAccept
    · exact ((silent.handleClientSession _ generated).spawn _).awaitAccept

theorem startWorker (outcome : InitOutcome) :
    Silent server (server.startWorker worker outcome) := by
  have ring := (initStages_same outcome
    { server.workers worker with phase := .looping }).2.1
  have initialized : Silent server (server.setWorker worker
      (initStages outcome
        { server.workers worker with phase := .looping }).1) := by
    refine refl.setWorker ?_
    rw [ring]
    exact .refl
  unfold Server.startWorker
  dsimp only
  split
  · exact initialized.acceptClients.spawn _
  · exact initialized

theorem storeResult (silent : Silent origin server) (address : SqeAddr)
    (res : Int) (flags : Nat) :
    Silent origin (server.storeResult address res flags) := by
  unfold Server.storeResult
  split
  · dsimp only
    split
    · exact silent.setWorker .refl
    · exact silent.fail
  · split
    · exact silent.putFrame _
    · exact silent.fail
  · exact silent.fail
  · split
    · exact silent.putFrame _
    · exact silent.fail

theorem resume (silent : Silent origin server) (generated : SessionId) :
    Silent origin (server.resume worker frame generated) := by
  unfold Server.resume
  split
  · exact silent.fail
  · split
    · exact silent.resumeAcceptClients generated
    · exact silent.resumeHandleSession _
    · exact silent.endFrame _
    · exact silent.endFrame none
    · split
      · exact silent.fail
      · exact (silent.endFrame _).endFrame none

theorem dispatchCqe (silent : Silent origin server) (cqe : Cqe)
    (generated : SessionId) :
    Silent origin (server.dispatchCqe worker cqe generated) := by
  unfold Server.dispatchCqe
  split
  · exact silent
  · split
    · exact silent.fail
    · dsimp only
      split
      · exact silent.storeResult _ _ _
      · exact (silent.storeResult _ _ _).resume generated

end Silent

theorem Worker.complete_silent {contents next : Worker} {index : Nat}
    {result : KernelResult} (kept : contents.ioUring.Kept)
    (silent : (Label.complete worker index result).executesSend = false)
    (completed : contents.complete index result = some next) :
    contents.ioUring.Silent next.ioUring := by
  obtain ⟨request, found, answered⟩ := complete_cases completed
  have fits := kept.fits request (.inr (List.mem_of_getElem? found))
  have unlike : (∀ buf, request.operation ≠ .send buf) →
      ∀ frame, some request.userData ≠ some (.sendAwaiter frame) := by
    intro noSend frame carries
    rw [Option.some.inj carries] at fits
    cases same : request.operation with
    | send buf => exact noSend buf same
    | multishotAccept =>
        rw [same] at fits
        cases fits
    | recv =>
        rw [same] at fits
        cases fits
  rcases answered with
    ⟨res, more, operation, rfl⟩ | ⟨cqe, buffers, operation, received, rfl⟩ |
      ⟨buf, res, operation, rfl⟩
  · refine .completed ?_ (unlike fun _ same => ?_)
    · intro other member
      split at member
      · exact member
      · exact List.eraseIdx_subset member
    · rw [operation] at same
      cases same
  · refine .completed (fun _ member => List.eraseIdx_subset member) ?_
    rw [ProvidedBuffers.completeRecv_userData received]
    refine unlike fun _ same => ?_
    rw [operation] at same
    cases same
  · rw [complete, found] at completed
    simp only [Option.bind_some, operation] at completed
    cases result with
    | sent res => cases silent
    | accepted res more => cases completed
    | received bytes => cases completed
    | ended selects => cases completed
    | recvFailed res => cases completed

theorem Server.Stepped.silent (matched : RingsMatch before) {label : Label}
    (silent : label.executesSend = false)
    (stepped : Stepped before label after) : Silent before after := by
  cases stepped with
  | start unstarted => exact .startWorker _
  | submit looping => exact Silent.refl.setWorker .submit
  | submitFails looping => exact Silent.refl.setWorker .refl
  | wake waiting present => exact Silent.refl.setWorker .refl
  | endBatch dispatching empty => exact Silent.refl.setWorker .refl
  | dispatch dispatching next =>
      refine Silent.dispatchCqe (Silent.refl.setWorker ?_) _ _
      exact .seen next
  | complete completed =>
      exact Silent.refl.setWorker
        (Worker.complete_silent (matched.kept _) silent completed)
  | cleanup swept => exact Silent.refl.congr rfl (Nat.le_refl _) rfl
  | tick => exact Silent.refl.congr rfl (Nat.le_refl _) rfl

end CoUring
