import CoUring.Io.DispatchPass
import CoUring.Server.Sessions

namespace CoUring

open Foundation Server

variable {server : Server} {worker : WorkerId} {frame : FrameId}
  {address : SqeAddr}

theorem Server.storeResult_sqeData
    (awaits : server.Awaits worker address frame) (res : Int) (flags : Nat) :
    ∃ data, (server.storeResult address res flags).sqeData address =
        some data ∧
      data.coroutine = some frame ∧ data.cqeRes = res ∧
      data.cqeFlags = flags := by
  cases awaits with
  | accept names suspended =>
      obtain ⟨acceptGuard, present, named⟩ := Option.bind_eq_some_iff.mp names
      obtain ⟨socketServer, listening, guarded⟩ :=
        Option.bind_eq_some_iff.mp present
      refine ⟨acceptGuard.sqeData.store res flags, ?_, named, rfl, rfl⟩
      simp [storeResult, sqeData, listening, guarded,
        MultishotAcceptGuard.store]
  | @recv _ session sessionId awaiter names suspended =>
      refine ⟨awaiter.sqeData.store res flags, ?_, names, rfl, rfl⟩
      rw [storeResult_recv suspended, sqeData, suspendAt_self]
      rfl
  | @send _ session awaiter names suspended =>
      refine ⟨awaiter.sqeData.store res flags, ?_, names, rfl, rfl⟩
      simp [storeResult, sqeData, suspended, SendAwaiter.store]

/-- The `sqe_data` objects and coroutines of the server as the dispatch loop
sees them, with the ids that `GenerateSessionId` will make. -/
def Server.sqeProgram (worker : WorkerId) :
    SqeProgram (Server × List SessionId) where
  coroutine := fun state address =>
    (state.1.sqeData address).bind SqeData.coroutine
  store := fun state address res flags =>
    (state.1.storeResult address res flags, state.2)
  resume := fun state frame =>
    (state.1.resume worker frame (state.2.headD ""), state.2.tail)

/-- In the server a completion does what the loop means it to do. -/
theorem RingsMatch.dispatch_sqeProgram (matched : RingsMatch server)
    (started : server.Started worker) {cqe : Cqe} {rest : List Cqe}
    (next : (server.workers worker).ioUring.cq = cqe :: rest)
    (generated : SessionId) (ids : List SessionId) :
    ∃ address frame, cqe.userData = some address ∧
      (sqeProgram worker).dispatch (server.setWorker worker
        ((server.workers worker).seen cqe rest), generated :: ids) cqe =
      (((server.setWorker worker ((server.workers worker).seen cqe
        rest)).dispatchCqe worker cqe generated, ids),
        [.stored address cqe.res cqe.flags, .resumed frame]) := by
  obtain ⟨address, frame, delivery⟩ := matched.deliver started next
  obtain ⟨data, stored, named, -⟩ :=
    storeResult_sqeData delivery.taken cqe.res cqe.flags
  refine ⟨address, frame, delivery.carries, ?_⟩
  rw [delivery.resumes, SqeProgram.dispatch_carries delivery.carries]
  simp [sqeProgram, stored, named, delivered]

structure RequestsMatch (server : Server) (worker : WorkerId) : Prop where
  awaited : ∀ address ∈ server.outstanding worker,
    ∃ frame, server.Awaits worker address frame
  fits : ∀ request, request ∈ (server.workers worker).ioUring.sq ∨
      request ∈ (server.workers worker).ioUring.inflight →
    request.userData.Fits request.operation
  carried : ∀ cqe ∈ (server.workers worker).ioUring.cq, cqe.userData ≠ none
  unshared : ((server.outstanding worker).filter fun address =>
    !address.isAcceptGuard).Nodup
  /-- Two outstanding receives, on whatever workers, are of two sessions. -/
  oneRecv : ∀ other frame frame' slot slot' thread thread' session sessionId
    sessionId' awaiter awaiter',
    .recvAwaiter frame slot ∈ server.outstanding worker →
    .recvAwaiter frame' slot' ∈ server.outstanding other →
    server.frames.cell frame =
      some ⟨thread, .handleSession session sessionId awaiter⟩ →
    server.frames.cell frame' =
      some ⟨thread', .handleSession session sessionId' awaiter'⟩ →
    other = worker ∧ frame' = frame ∧ slot = .awaited ∧ slot' = .awaited
  severalCompletions : ∀ address,
    2 ≤ ((server.workers worker).ioUring.cq.filterMap Cqe.userData).count
      address →
    address.isAcceptGuard = true
  /-- The next completion is stored where it belongs, and the coroutine resumed
  is the one suspended there. -/
  resumes : ∀ cqe rest generated,
    (server.workers worker).ioUring.cq = cqe :: rest →
    ∃ address frame data, cqe.userData = some address ∧
      (server.delivered worker cqe rest address).Awaits worker address
        frame ∧
      (server.delivered worker cqe rest address).sqeData address =
        some data ∧
      data.coroutine = some frame ∧ data.cqeRes = cqe.res ∧
      data.cqeFlags = cqe.flags ∧
      (server.setWorker worker ((server.workers worker).seen cqe
        rest)).dispatchCqe worker cqe generated =
        (server.delivered worker cqe rest address).resume worker frame
          generated
  healthy : server.faulted = false

theorem RingsMatch.oneRecv (matched : RingsMatch server)
    (sessions : SessionsKept server) {other : WorkerId}
    {frame frame' : FrameId} {slot slot' : RecvSlot}
    {thread thread' : WorkerId} {session : SessionPtr}
    {sessionId sessionId' : SessionId} {awaiter awaiter' : RecvAwaiter}
    (member : .recvAwaiter frame slot ∈ server.outstanding worker)
    (member' : .recvAwaiter frame' slot' ∈ server.outstanding other)
    (stored : server.frames.cell frame =
      some ⟨thread, .handleSession session sessionId awaiter⟩)
    (stored' : server.frames.cell frame' =
      some ⟨thread', .handleSession session sessionId' awaiter'⟩) :
    other = worker ∧ frame' = frame ∧ slot = .awaited ∧ slot' = .awaited := by
  have same := sessions.single _ _ _ _ _ _ _ _ _ stored stored'
  subst same
  obtain ⟨resumed, awaits⟩ := matched.awaited worker _ member
  obtain ⟨resumed', awaits'⟩ := matched.awaited other _ member'
  obtain ⟨slotEq, -, point, here⟩ := awaits.recv_slot
  obtain ⟨slotEq', -, point', here'⟩ := awaits'.recv_slot
  cases here.symm.trans here'
  exact ⟨rfl, rfl, slotEq, slotEq'⟩

theorem IoUring.Kept.several {ring : IoUring} (kept : ring.Kept)
    (several : 2 ≤ (ring.cq.filterMap Cqe.userData).count address) :
    address.isAcceptGuard = true := by
  by_contra single
  have once := List.nodup_iff_count_le_one.mp kept.once address
  rw [List.count_filter (by simpa using single), outstanding,
    List.count_append] at once
  omega

theorem requestsMatch_of_reachable
    (reachable : serverSystem.Reachable server) (worker : WorkerId) :
    RequestsMatch server worker := by
  have matched := ringsMatch_of_reachable reachable
  have sessions := sessionsKept_of_reachable reachable
  have kept := matched.kept worker
  refine {
    awaited := matched.awaited worker
    fits := kept.fits
    carried := kept.carried
    unshared := kept.once
    oneRecv := fun _ _ _ _ _ _ _ _ _ _ _ _ member member' stored stored' =>
      matched.oneRecv sessions member member' stored stored'
    severalCompletions := fun _ several => kept.several several
    resumes := ?_
    healthy := sessions.healthy }
  intro cqe rest generated next
  have started : server.Started worker := by
    intro notStarted
    rw [matched.unstarted worker (not_not.mpr notStarted)] at next
    cases next
  obtain ⟨address, frame, delivery⟩ := matched.deliver started next
  obtain ⟨data, stored, named, res, flags⟩ :=
    storeResult_sqeData delivery.taken cqe.res cqe.flags
  exact ⟨address, frame, data, delivery.carries, delivery.stored.awaits,
    stored, named, res, flags, delivery.resumes generated⟩

theorem requestsMatch_after_accept :
    ∃ server, TransitionSystem.runLabels Server.step {}
        [.start 0 ⟨0, none, 0, some 3, 0⟩, .submit 0,
          .complete 0 0 (.accepted 7 true), .wake 0, .dispatch 0 "A"] =
      some server ∧ RequestsMatch server 0 := by
  have run : ∃ server, TransitionSystem.runLabels Server.step {}
      [.start 0 ⟨0, none, 0, some 3, 0⟩, .submit 0,
        .complete 0 0 (.accepted 7 true), .wake 0, .dispatch 0 "A"] =
      some server := ⟨_, rfl⟩
  obtain ⟨server, run⟩ := run
  exact ⟨server, run, requestsMatch_of_reachable
    (.runLabels (.initial rfl) run) 0⟩

end CoUring
