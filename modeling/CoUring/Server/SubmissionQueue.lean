import CoUring.Server.Start

namespace CoUring

open Foundation Server

variable {server before after : Server} {worker : WorkerId} {cqe : Cqe}
  {rest : List Cqe} {generated : SessionId}

/-- Every coroutine suspended at a receive or a send has exactly one request
that is queued, in flight, or completed and not dispatched. -/
structure Server.NoneLost (server : Server) : Prop where
  recv : ∀ frame thread session sessionId awaiter,
    server.frames.cell frame =
      some ⟨thread, .handleSession session sessionId awaiter⟩ →
    (server.outstanding thread).count (.recvAwaiter frame .awaited) = 1
  send : ∀ frame thread session awaiter,
    server.frames.cell frame = some ⟨thread, .sendData session awaiter⟩ →
    (server.outstanding thread).count (.sendAwaiter frame) = 1

def Server.RecvsOutstanding (server : Server) : Prop :=
  ∀ frame thread session sessionId awaiter,
    server.frames.cell frame =
      some ⟨thread, .handleSession session sessionId awaiter⟩ →
    .recvAwaiter frame .awaited ∈ server.outstanding thread

/-- Nothing but the accept occurs twice, and nothing is ever sent. -/
theorem noneLost_iff (reachable : serverSystem.Reachable server) :
    server.NoneLost ↔ server.RecvsOutstanding := by
  have matched := ringsMatch_of_reachable reachable
  constructor
  · intro noneLost frame thread session sessionId awaiter stored
    exact List.count_pos_iff.mp
      (noneLost.recv frame thread session sessionId awaiter stored).ge
  · intro outstanding
    refine ⟨?_, ?_⟩
    · intro frame thread session sessionId awaiter stored
      have once := (matched.kept thread).once
      have member := outstanding frame thread session sessionId awaiter stored
      rw [← List.count_filter (p := fun address => !address.isAcceptGuard) rfl]
      exact List.count_eq_one_of_mem once (List.mem_filter.mpr ⟨member, rfl⟩)
    · intro frame thread session awaiter stored
      exact absurd stored
        ((sessionsKept_of_reachable reachable).silent _ _ _ _)

/-! Which requests a dispatch leaves. -/

/-- The completion makes a coroutine receive: a connection was accepted, or a
receive brought data. -/
def Cqe.Receives (cqe : Cqe) : Prop :=
  match cqe.userData with
  | some (.acceptGuard _) => 0 ≤ cqe.res
  | some (.recvAwaiter _ _) => 0 < cqe.res
  | _ => False

theorem Dispatched.grows
    (dispatched : Dispatched server worker cqe rest generated after)
    (next : (server.workers worker).ioUring.cq = cqe :: rest)
    {thread : WorkerId} {address : SqeAddr}
    (member : address ∈ server.outstanding thread)
    (other : cqe.userData ≠ some address) :
    address ∈ after.outstanding thread := by
  by_cases same : thread = worker
  · subst same
    have carried : ∃ carried, cqe.userData = some carried := by
      cases dispatched.outcome with
      | refused carries => exact ⟨_, carries⟩
      | accepted carries => exact ⟨_, carries⟩
      | received rawFd carries => exact ⟨_, carries⟩
      | ended carries => exact ⟨_, carries⟩
    obtain ⟨carried, carries⟩ := carried
    have remains : address ∈ (server.seenRing thread rest).outstanding := by
      have listed := (IoUring.outstanding_seen next carries).subset member
      refine (List.mem_cons.mp listed).resolve_left fun same => ?_
      exact other (same ▸ carries)
    rw [outstanding]
    cases dispatched.outcome with
    | refused carries failed ring => rwa [ring]
    | accepted carries success ring =>
        rw [ring]
        exact IoUring.queueRequest_grows remains
    | received rawFd carries suspended received ring =>
        rw [ring]
        exact IoUring.queueRequest_grows remains
    | ended carries suspended ended ring => rwa [ring]
  · rw [outstanding, dispatched.others thread same]
    exact member

theorem mem_queueRequest_iff {ring : IoUring} {request : Request}
    (new : request.userData ∉ ring.outstanding) :
    request.userData ∈ (ring.queueRequest request).outstanding ↔
      ring.sq.length < IoUring.queueSize := by
  constructor
  · intro member
    by_contra full
    rw [IoUring.queueRequest_full request full] at member
    exact new member
  · intro room
    exact (IoUring.outstanding_queueRequest room).symm.subset (by simp)

theorem newRecv_mem_iff (matched : RingsMatch server)
    (next : (server.workers worker).ioUring.cq = cqe :: rest)
    (carries : cqe.userData = some (.acceptGuard worker)) {rawFd : RawFd}
    (ring : (after.workers worker).ioUring =
      (server.seenRing worker rest).queueRequest
        ⟨.recv, rawFd, .recvAwaiter (server.frames.next + 1) .awaited⟩) :
    .recvAwaiter (server.frames.next + 1) .awaited ∈
        after.outstanding worker ↔
      (server.workers worker).ioUring.sq.length < IoUring.queueSize := by
  rw [Server.outstanding, ring]
  refine mem_queueRequest_iff fun member => ?_
  have present := (IoUring.outstanding_seen next carries).symm.subset
    (List.mem_cons_of_mem _ member)
  obtain ⟨frame, awaits⟩ := matched.awaited worker _ present
  obtain ⟨-, -, point, stored⟩ := awaits.recv_slot
  exact absurd (Heap.lt_next stored) (Nat.not_lt.mpr (Nat.le_succ _))

namespace Server.RecvsOutstanding

theorem remains (outstanding : server.RecvsOutstanding)
    (next : (server.workers worker).ioUring.cq = cqe :: rest)
    (dispatched : Dispatched server worker cqe rest generated after)
    {frame : FrameId} {thread : WorkerId} {session : SessionPtr}
    {sessionId : SessionId} {awaiter : RecvAwaiter}
    (stored : server.frames.cell frame =
      some ⟨thread, .handleSession session sessionId awaiter⟩)
    (other : cqe.userData ≠ some (.recvAwaiter frame .awaited)) :
    .recvAwaiter frame .awaited ∈ after.outstanding thread :=
  dispatched.grows next (outstanding _ _ _ _ _ stored) other

theorem update (outstanding : server.RecvsOutstanding)
    (next : (server.workers worker).ioUring.cq = cqe :: rest)
    (dispatched : Dispatched server worker cqe rest generated after)
    {frame : FrameId} {contents : Option Frame}
    (carries : cqe.userData = some (.recvAwaiter frame .awaited))
    (cells : after.frames.cell =
      Function.update server.frames.cell frame contents)
    (resumed : ∀ thread session sessionId awaiter,
      contents = some ⟨thread, .handleSession session sessionId awaiter⟩ →
      .recvAwaiter frame .awaited ∈ after.outstanding thread) :
    after.RecvsOutstanding := by
  intro other thread session sessionId awaiter stored
  rw [cells] at stored
  by_cases same : other = frame
  · subst same
    rw [Function.update_self] at stored
    exact resumed _ _ _ _ stored
  · rw [Function.update_of_ne same] at stored
    refine outstanding.remains next dispatched stored ?_
    rw [carries]
    rintro ⟨⟩
    exact same rfl

end Server.RecvsOutstanding

theorem recvsOutstanding_dispatch (matched : RingsMatch server)
    (outstanding : server.RecvsOutstanding)
    (next : (server.workers worker).ioUring.cq = cqe :: rest)
    (dispatched : Dispatched server worker cqe rest generated after) :
    after.RecvsOutstanding ↔
      (cqe.Receives →
        (server.workers worker).ioUring.sq.length < IoUring.queueSize) := by
  have kept := matched.kept worker
  cases dispatched.outcome with
  | refused carries failed ring buffers cells manager =>
      refine iff_of_true ?_ ?_
      · intro frame thread session sessionId awaiter stored
        rw [cells] at stored
        exact outstanding.remains next dispatched stored (by simp [carries])
      · intro receives
        rw [Cqe.Receives, carries] at receives
        exact absurd receives (not_le.mpr failed)
  | accepted carries success ring buffers cells manager =>
      have receives : cqe.Receives := by
        rw [Cqe.Receives, carries]
        exact success
      rw [imp_iff_right receives, ← newRecv_mem_iff matched next carries ring]
      constructor
      · intro all
        exact all _ _ _ _ _
          ((congrFun cells _).trans (connectedCells_handler _))
      · intro member frame thread session sessionId awaiter stored
        rw [cells] at stored
        rcases connectedCells_cases _ stored with
          ⟨-, same⟩ | ⟨isNew, same⟩ | ⟨-, same⟩ | old
        · cases same
        · cases same
          rw [isNew]
          exact member
        · cases same
        · exact outstanding.remains next dispatched old (by simp [carries])
  | @received frame session sessionId awaiter rawFd carries suspended received
      ring buffers cells manager =>
      have receives : cqe.Receives := by
        rw [Cqe.Receives, carries]
        exact received
      have here : .recvAwaiter frame .awaited ∈ after.outstanding worker ↔
          (server.workers worker).ioUring.sq.length < IoUring.queueSize := by
        rw [Server.outstanding, ring]
        exact mem_queueRequest_iff (kept.not_mem_seen next carries rfl)
      rw [imp_iff_right receives, ← here]
      constructor
      · intro all
        exact all _ _ _ _ _
          ((congrFun cells _).trans (Function.update_self _ _ _))
      · intro member
        refine outstanding.update next dispatched carries cells ?_
        rintro _ _ _ _ ⟨⟩
        exact member
  | ended carries suspended ended ring buffers cells manager =>
      refine iff_of_true ?_ ?_
      · refine outstanding.update next dispatched carries cells ?_
        rintro _ _ _ _ ⟨⟩
      · intro receives
        rw [Cqe.Receives, carries] at receives
        exact absurd receives (not_lt.mpr ended)

/-! The other steps. -/

theorem Server.RecvsOutstanding.mono (outstanding : before.RecvsOutstanding)
    (handlers : ∀ frame thread session sessionId awaiter,
      after.frames.cell frame =
        some ⟨thread, .handleSession session sessionId awaiter⟩ →
      before.frames.cell frame =
        some ⟨thread, .handleSession session sessionId awaiter⟩)
    (grows : ∀ thread address, address ∈ before.outstanding thread →
      address ∈ after.outstanding thread) : after.RecvsOutstanding :=
  fun frame thread session sessionId awaiter stored =>
    grows thread _ (outstanding frame thread session sessionId awaiter
      (handlers frame thread session sessionId awaiter stored))

theorem Server.RecvsOutstanding.setWorker
    (outstanding : server.RecvsOutstanding) {contents : Worker}
    (grows : ∀ address ∈ server.outstanding worker,
      address ∈ contents.ioUring.outstanding) :
    (server.setWorker worker contents).RecvsOutstanding := by
  refine outstanding.mono (fun _ _ _ _ _ stored => stored) ?_
  exact setWorker_forall worker contents
    (fun thread contents => ∀ address ∈ server.outstanding thread,
      address ∈ contents.ioUring.outstanding)
    grows fun _ _ member => member

theorem recvsOutstanding_start (matched : RingsMatch server)
    (outstanding : server.RecvsOutstanding)
    (unstarted : (server.workers worker).phase = .notStarted)
    (outcome : InitOutcome) :
    (server.startWorker worker outcome).RecvsOutstanding := by
  have fresh := matched.unstarted worker (not_not.mpr unstarted)
  refine outstanding.mono (fun _ _ _ _ _ => startWorker_handler) ?_
  intro thread address member
  refine (Quiet.startWorker outcome).grows thread address ?_
  refine setWorker_forall worker _
    (fun thread contents => ∀ address ∈ server.outstanding thread,
      address ∈ contents.ioUring.outstanding)
    ?_ (fun _ _ member => member) thread address member
  intro address member
  rw [Server.outstanding, fresh] at member
  cases member

/-- Each dispatch that makes a coroutine receive finds a free entry in the
submission queue. -/
def Server.QueueHasRoom (server : Server) : Label → Prop
  | .dispatch worker _ =>
      ∀ cqe ∈ (server.workers worker).ioUring.cq.head?, cqe.Receives →
        (server.workers worker).ioUring.sq.length < IoUring.queueSize
  | _ => True

theorem noneLost_step (reachable : serverSystem.Reachable before)
    (noneLost : before.NoneLost) {label : Label}
    (step : before.step label = some after) :
    after.NoneLost ↔ before.QueueHasRoom label := by
  have matched := ringsMatch_of_reachable reachable
  rw [noneLost_iff reachable] at noneLost
  rw [noneLost_iff (reachable.step step)]
  cases (step_cases step).2 with
  | start unstarted =>
      exact iff_of_true
        (recvsOutstanding_start matched noneLost unstarted _) trivial
  | @dispatch worker generated cqe rest dispatching next =>
      have single : before.QueueHasRoom (.dispatch worker generated) ↔
          (cqe.Receives →
            (before.workers worker).ioUring.sq.length < IoUring.queueSize) := by
        simp [QueueHasRoom, next]
      rw [single]
      exact recvsOutstanding_dispatch matched noneLost next
        (dispatched_of_reachable reachable dispatching next generated)
  | submit looping =>
      refine iff_of_true (noneLost.setWorker ?_) trivial
      exact fun _ member => IoUring.outstanding_submit.symm.subset member
  | submitFails looping =>
      exact iff_of_true (noneLost.setWorker fun _ member => member) trivial
  | wake waiting present =>
      exact iff_of_true (noneLost.setWorker fun _ member => member) trivial
  | endBatch dispatching empty =>
      exact iff_of_true (noneLost.setWorker fun _ member => member) trivial
  | complete completed =>
      exact iff_of_true
        (noneLost.setWorker (Worker.complete_grows completed)) trivial
  | cleanup swept => exact iff_of_true noneLost trivial
  | tick => exact iff_of_true noneLost trivial

/-- Exactly the runs whose submission queues never overflow leave no suspended
coroutine without its request. -/
theorem none_lost_iff_queue_has_room {history : List (Server × Label)}
    {last : Server} (run : serverSystem.Execution {} history last) :
    (∀ state ∈ TransitionSystem.visited history last, state.NoneLost) ↔
      ∀ taken ∈ history, taken.1.QueueHasRoom taken.2 := by
  refine TransitionSystem.Execution.good_iff_guarded ?_ ?_ rfl run
  · rintro _ rfl
    refine ⟨?_, ?_⟩
    · intro frame thread session sessionId awaiter stored
      cases stored
    · intro frame thread session awaiter stored
      cases stored
  · intro before label after reachable noneLost step
    exact noneLost_step reachable noneLost step

/-! A batch of completions that is longer than the submission queue. -/

/-- Connections are accepted one after the other within one batch. -/
def acceptBatch (count : Nat) : List Label :=
  [.start 0 ⟨0, none, 0, some 3, 0⟩, .submit 0,
    .complete 0 0 (.accepted 7 true), .wake 0] ++
  (List.range count).flatMap fun index =>
    [.dispatch 0 (toString index),
      .complete 0 0 (.accepted (8 + index : Nat) true)]

theorem one_connection_loses_nothing :
    ∃ last, TransitionSystem.runLabels Server.step {}
        (acceptBatch 0 ++ [.dispatch 0 "only"]) = some last ∧
      ∀ state ∈ TransitionSystem.visited (TransitionSystem.traceLabels
        Server.step {} (acceptBatch 0 ++ [.dispatch 0 "only"])) last,
        state.NoneLost := by
  have run : ∃ last, TransitionSystem.runLabels Server.step {}
      (acceptBatch 0 ++ [.dispatch 0 "only"]) = some last := ⟨_, rfl⟩
  obtain ⟨last, run⟩ := run
  refine ⟨last, run, (none_lost_iff_queue_has_room (.runLabels run)).mpr ?_⟩
  have trace : TransitionSystem.traceLabels Server.step {}
      (acceptBatch 0 ++ [.dispatch 0 "only"]) =
        [(_, _), (_, _), (_, _), (_, _), (_, _)] := rfl
  rw [trace]
  simp only [List.forall_mem_cons]
  refine ⟨trivial, trivial, trivial, trivial, ?_, List.forall_mem_nil _⟩
  rintro cqe ⟨⟩ -
  decide

structure InBatch (server : Server) (count : Nat) : Prop where
  dispatching : (server.workers 0).phase = .dispatching
  queued : (server.workers 0).ioUring.sq.length = count
  armed : ∃ rawFd, (server.workers 0).ioUring.inflight =
    [⟨.multishotAccept, rawFd, .acceptGuard 0⟩]
  posted : ∃ rawFd : Nat, (server.workers 0).ioUring.cq =
    [⟨some (.acceptGuard 0), rawFd, moreFlags true⟩]

theorem Dispatched.accepts {rawFd : Nat} {flags : Nat}
    (dispatched : Dispatched server worker
      ⟨some (.acceptGuard worker), rawFd, flags⟩ rest generated after) :
    (after.workers worker).ioUring =
        (server.seenRing worker rest).queueRequest
          ⟨.recv, rawFd, .recvAwaiter (server.frames.next + 1) .awaited⟩ ∧
      after.frames.cell =
        server.connectedCells worker (.adopt rawFd) generated := by
  cases dispatched.outcome with
  | refused carries failed => exact absurd failed (by simp)
  | accepted carries success ring buffers cells => exact ⟨ring, cells⟩
  | received rawFd carries => cases carries
  | ended carries => cases carries

theorem InBatch.next {count : Nat} (batch : InBatch server count)
    (reachable : serverSystem.Reachable server)
    (room : count < IoUring.queueSize) (index : Nat) :
    ∃ next, TransitionSystem.runLabels Server.step server
        [.dispatch 0 (toString index),
          .complete 0 0 (.accepted (8 + index : Nat) true)] = some next ∧
      InBatch next (count + 1) := by
  obtain ⟨rawFd, posted⟩ := batch.posted
  obtain ⟨listening, armed⟩ := batch.armed
  have dispatched := dispatched_of_reachable reachable batch.dispatching
    posted (toString index)
  have phase := (ringsMatch_of_reachable reachable).dispatch_phase
    (started_of_phase batch.dispatching Phase.noConfusion) posted
    (toString index) 0
  have dispatch : server.step (.dispatch 0 (toString index)) = some _ :=
    (Stepped.dispatch batch.dispatching posted).step
      (sessionsKept_of_reachable reachable).healthy
  generalize (server.setWorker 0 _).dispatchCqe 0 _ (toString index) = middle
    at dispatched phase dispatch
  have healthy := (sessionsKept_of_reachable (reachable.step dispatch)).healthy
  have free : (server.seenRing 0 []).sq.length < IoUring.queueSize :=
    batch.queued.trans_lt room
  obtain ⟨ring, -⟩ := dispatched.accepts
  rw [IoUring.queueRequest_room _ free] at ring
  have inflight : (middle.workers 0).ioUring.inflight =
      [⟨.multishotAccept, listening, .acceptGuard 0⟩] := by
    rw [ring]
    exact armed
  let answered : Worker := { middle.workers 0 with
    ioUring := { (middle.workers 0).ioUring with
      cq := (middle.workers 0).ioUring.cq ++
        [⟨some (.acceptGuard 0), (8 + index : Nat), moreFlags true⟩] } }
  have completed : (middle.workers 0).complete 0
      (.accepted (8 + index : Nat) true) = some answered := by
    simp [Worker.complete, inflight, answered]
  have complete := (Stepped.complete completed).step healthy
  refine ⟨middle.setWorker 0 answered, ?_,
    ⟨?_, ?_, ⟨listening, ?_⟩, ⟨8 + index, ?_⟩⟩⟩
  · simp only [TransitionSystem.runLabels, dispatch, complete,
      Option.bind_some]
  · rw [setWorker_self]
    exact phase.trans batch.dispatching
  · rw [setWorker_self]
    simp [answered, ring, seenRing, batch.queued]
  · rw [setWorker_self]
    exact inflight
  · rw [setWorker_self]
    simp [answered, ring, seenRing]

theorem inBatch_of_count (count : Nat) (fits : count ≤ IoUring.queueSize) :
    ∃ server, TransitionSystem.runLabels Server.step {} (acceptBatch count) =
      some server ∧ InBatch server count := by
  induction count with
  | zero => exact ⟨_, rfl, ⟨rfl, rfl, ⟨3, rfl⟩, ⟨7, rfl⟩⟩⟩
  | succ count induction =>
      obtain ⟨server, run, batch⟩ := induction (Nat.le_of_succ_le fits)
      have reachable : serverSystem.Reachable server :=
        .runLabels (.initial rfl) run
      obtain ⟨next, step, later⟩ := batch.next reachable fits count
      refine ⟨next, ?_, later⟩
      have longer : acceptBatch (count + 1) = acceptBatch count ++
          [.dispatch 0 (toString count),
            .complete 0 0 (.accepted (8 + count : Nat) true)] := by
        simp [acceptBatch, List.range_succ]
      rw [longer, TransitionSystem.runLabels_append, run]
      exact step

/-- The connection after those that fill the queue is accepted and never
received from. -/
theorem full_queue_loses_receive :
    ∃ server, TransitionSystem.runLabels Server.step {}
        (acceptBatch IoUring.queueSize ++ [.dispatch 0 "last"]) =
      some server ∧ ¬ server.NoneLost := by
  obtain ⟨server, run, batch⟩ :=
    inBatch_of_count IoUring.queueSize (Nat.le_refl _)
  have reachable : serverSystem.Reachable server :=
    .runLabels (.initial rfl) run
  obtain ⟨rawFd, posted⟩ := batch.posted
  have dispatched :=
    dispatched_of_reachable reachable batch.dispatching posted "last"
  have dispatch : server.step (.dispatch 0 "last") = some _ :=
    (Stepped.dispatch batch.dispatching posted).step
      (sessionsKept_of_reachable reachable).healthy
  generalize (server.setWorker 0 _).dispatchCqe 0 _ "last" = next
    at dispatched dispatch
  obtain ⟨ring, cells⟩ := dispatched.accepts
  refine ⟨next, ?_, ?_⟩
  · rw [TransitionSystem.runLabels_append, run]
    simp only [TransitionSystem.runLabels, Option.bind_some, dispatch]
  · rw [noneLost_iff (reachable.step dispatch)]
    intro all
    have member := all _ _ _ _ _
      ((congrFun cells _).trans (connectedCells_handler _))
    rw [newRecv_mem_iff (ringsMatch_of_reachable reachable) posted rfl ring,
      batch.queued] at member
    exact Nat.lt_irrefl _ member

end CoUring
