import CoUring.Server.Requests
import CoUring.Server.Steps

namespace CoUring

open Foundation Server

variable {server before after : Server} {worker : WorkerId} {frame : FrameId}
  {address : SqeAddr}

/-! The accept guard. -/

theorem MultishotAcceptGuard.awaitSuspend_coroutine
    (acceptGuard : MultishotAcceptGuard) (ring : IoUring) :
    (acceptGuard.awaitSuspend ring address frame).1.sqeData.coroutine =
      some frame := by
  unfold awaitSuspend
  dsimp only
  split <;> rfl

theorem MultishotAcceptGuard.awaitSuspend_ring
    (acceptGuard : MultishotAcceptGuard) (ring : IoUring)
    (address : SqeAddr) (frame : FrameId) :
    (acceptGuard.awaitSuspend ring address frame).2 = ring ∨
      (acceptGuard.awaitSuspend ring address frame).2 =
        ring.queueRequest ⟨.multishotAccept, acceptGuard.rawFd, address⟩ := by
  unfold awaitSuspend
  dsimp only
  split
  · exact Or.inr rfl
  · exact Or.inl rfl

theorem MultishotAcceptGuard.awaitSuspend_kept
    (acceptGuard : MultishotAcceptGuard) {ring : IoUring} (kept : ring.Kept) :
    (acceptGuard.awaitSuspend ring (.acceptGuard worker) frame).2.Kept := by
  rcases acceptGuard.awaitSuspend_ring ring (.acceptGuard worker) frame with
    same | queued
  · rw [same]
    exact kept
  · rw [queued]
    exact kept.queueRequest .accept fun single => by cases single

theorem MultishotAcceptGuard.mem_awaitSuspend
    (acceptGuard : MultishotAcceptGuard) {ring : IoUring}
    {added : SqeAddr} (member : added ∈
      (acceptGuard.awaitSuspend ring address frame).2.outstanding) :
    added ∈ ring.outstanding ∨ added = address := by
  rcases acceptGuard.awaitSuspend_ring ring address frame with same | queued
  · rw [same] at member
    exact Or.inl member
  · rw [queued] at member
    exact IoUring.mem_outstanding_queueRequest member

theorem RingsMatch.suspendAccept (matched : RingsMatch server)
    (started : server.Started worker)
    (thread : server.threadOf worker frame = worker)
    (alone : ∀ other address, address ∈ server.outstanding other →
      server.Awaits other address frame → address = .acceptGuard worker)
    {contents : Worker} (kept : contents.ioUring.Kept)
    (fewer : ∀ address ∈ contents.ioUring.outstanding,
      address ∈ server.outstanding worker ∨ address = .acceptGuard worker)
    (names : contents.acceptor = some frame)
    (running : contents.phase ≠ .notStarted) :
    RingsMatch ((server.setWorker worker contents).suspendAt worker frame
      .acceptClients) := by
  have earlier := setWorker_forall worker contents
    (fun other contents => ∀ address ∈ contents.ioUring.outstanding,
      address ∈ server.outstanding other ∨
        other = worker ∧ address = .acceptGuard worker)
    (fun address member =>
      (fewer address member).imp_right fun added => ⟨rfl, added⟩)
    fun _ _ member => .inl member
  refine ⟨?_, ?_, ?_, ?_⟩
  · exact setWorker_forall worker contents
      (fun _ contents => contents.ioUring.Kept) kept matched.kept
  · intro other address member
    by_cases accepts : other = worker ∧ address = .acceptGuard worker
    · obtain ⟨rfl, rfl⟩ := accepts
      refine ⟨frame, .accept ?_ ?_⟩
      · rw [suspendAt_workers, setWorker_self]
        exact names
      · rw [suspendAt_self, setWorker_threadOf, thread]
    · have member' := (earlier other address member).resolve_right accepts
      obtain ⟨resumed, awaits⟩ := matched.awaited other address member'
      have different : resumed ≠ frame := by
        rintro rfl
        have isGuard := alone other address member' awaits
        subst isGuard
        cases awaits
        exact accepts ⟨rfl, rfl⟩
      refine ⟨resumed, ?_⟩
      cases awaits with
      | accept names suspended =>
          have elsewhere : other ≠ worker := by
            rintro rfl
            exact accepts ⟨rfl, rfl⟩
          refine .accept ?_ ((suspendAt_other _ different).trans suspended)
          rw [suspendAt_workers, setWorker_other _ elsewhere]
          exact names
      | recv names suspended =>
          exact .recv names ((suspendAt_other _ different).trans suspended)
      | send names suspended =>
          exact .send names ((suspendAt_other _ different).trans suspended)
  · exact setWorker_forall worker contents
      (fun _ contents => ¬ contents.phase ≠ .notStarted → contents = {})
      (absurd running) matched.unstarted
  · intro other stored isStored
    have runs : server.Started stored.thread := by
      rcases suspendAt_cases isStored with ⟨rfl, rfl⟩ | ⟨-, old⟩
      · rw [setWorker_threadOf, thread]
        exact started
      · exact matched.started other stored old
    exact setWorker_forall worker contents
      (fun other contents =>
        server.Started other → contents.phase ≠ .notStarted)
      (fun _ => running) (fun _ runs => runs) stored.thread runs

theorem RingsMatch.awaitAccept (matched : RingsMatch server)
    (started : server.Started worker)
    (thread : server.threadOf worker frame = worker)
    (alone : ∀ other address, address ∈ server.outstanding other →
      server.Awaits other address frame → address = .acceptGuard worker) :
    RingsMatch (server.awaitAccept worker frame) := by
  unfold Server.awaitAccept
  dsimp only
  split
  · exact matched.fail
  next socketServer listening =>
    exact matched.suspendAccept started thread alone
      (socketServer.accept.awaitSuspend_kept (matched.kept worker))
      (fun _ => socketServer.accept.mem_awaitSuspend)
      (socketServer.accept.awaitSuspend_coroutine _) started

theorem Server.Awaits.eq_acceptGuard
    (awaits : server.Awaits worker address frame)
    (isGuard : address.isAcceptGuard = true) :
    address = .acceptGuard worker := by
  cases awaits with
  | accept names suspended => rfl
  | recv names suspended => cases isGuard
  | send names suspended => cases isGuard

theorem Server.Awaits.recv_slot {slot : RecvSlot} {inside : FrameId}
    (awaits : server.Awaits worker (.recvAwaiter inside slot) frame) :
    slot = .awaited ∧ inside = frame ∧
      ∃ point, server.frames.cell inside = some ⟨worker, point⟩ := by
  cases awaits with
  | recv names suspended => exact ⟨rfl, rfl, _, suspended⟩

/-- Only the accept guard resumes a coroutine suspended at `accept()`. -/
theorem Server.Awaits.accepting {thread : WorkerId}
    (awaits : server.Awaits worker address frame)
    (suspended : server.frames.cell frame = some ⟨thread, .acceptClients⟩) :
    address = .acceptGuard thread := by
  cases awaits with
  | accept names stored =>
      rw [suspended] at stored
      cases stored
      rfl
  | recv names stored =>
      rw [suspended] at stored
      cases stored
  | send names stored =>
      rw [suspended] at stored
      cases stored

theorem Server.Awaits.unique {other : WorkerId} {address' : SqeAddr}
    (awaits : server.Awaits worker address frame)
    (awaits' : server.Awaits other address' frame) :
    other = worker ∧ address' = address := by
  cases awaits with
  | accept names suspended =>
      have same := awaits'.accepting suspended
      subst same
      cases awaits'
      exact ⟨rfl, rfl⟩
  | recv names suspended =>
      cases awaits' with
      | accept names' suspended' => simp [suspended] at suspended'
      | recv names' suspended' =>
          rw [suspended] at suspended'
          cases suspended'
          exact ⟨rfl, rfl⟩
      | send names' suspended' => simp [suspended] at suspended'
  | send names suspended =>
      cases awaits' with
      | accept names' suspended' => simp [suspended] at suspended'
      | recv names' suspended' => simp [suspended] at suspended'
      | send names' suspended' =>
          rw [suspended] at suspended'
          cases suspended'
          exact ⟨rfl, rfl⟩

theorem RingsMatch.resumeAcceptClients (matched : RingsMatch server)
    (started : server.Started worker)
    (suspended : server.frames.cell frame = some ⟨worker, .acceptClients⟩)
    (generated : SessionId) :
    RingsMatch (server.resumeAcceptClients worker frame generated) := by
  unfold Server.resumeAcceptClients
  split
  · exact matched.fail
  · split
    · exact matched.awaitAccept started (threadOf_stored suspended)
        fun _ _ _ awaits => awaits.accepting suspended
    next client accepted =>
      have called := Keeps.handleClientSession matched started (some client)
        generated
      have spawned := called.trans ((Keeps.spawn called.matched
        (called.started started)
        (server.handleClientSession worker (some client) generated).2).mono
          called.above.next)
      have still := (spawned.above.cells frame
        (Heap.lt_next suspended)).trans suspended
      exact spawned.matched.awaitAccept (spawned.started started)
        (threadOf_stored still) fun _ _ _ awaits => awaits.accepting still

/-! What no coroutine ever does: take a completion or a request away. -/

structure Quiet (before after : Server) : Prop where
  phase : ∀ worker,
    (after.workers worker).phase = (before.workers worker).phase
  grows : ∀ worker address, address ∈ before.outstanding worker →
    address ∈ after.outstanding worker
  completions : ∀ worker,
    (after.workers worker).ioUring.cq = (before.workers worker).ioUring.cq ∧
      (after.workers worker).dispatched = (before.workers worker).dispatched

namespace Quiet

theorem trans (first : Quiet before middle) (second : Quiet middle after) :
    Quiet before after where
  phase := fun worker => (second.phase worker).trans (first.phase worker)
  grows := fun worker address member =>
    second.grows worker address (first.grows worker address member)
  completions := fun worker =>
    ⟨(second.completions worker).1.trans (first.completions worker).1,
      (second.completions worker).2.trans (first.completions worker).2⟩

theorem of_workers (workers : after.workers = before.workers) :
    Quiet before after where
  phase := fun _ => by rw [workers]
  grows := fun _ _ member => by
    rw [outstanding, workers]
    exact member
  completions := fun _ => by
    rw [workers]
    exact ⟨rfl, rfl⟩

theorem of_above {bound : FrameId} (above : Above bound before after) :
    Quiet before after :=
  ⟨above.phase, above.grows, above.completions⟩

theorem awaitAccept : Quiet server (server.awaitAccept worker frame) := by
  unfold Server.awaitAccept
  dsimp only
  split
  · exact .of_workers rfl
  next socketServer listening =>
    have ring := socketServer.accept.awaitSuspend_ring
      (server.workers worker).ioUring (.acceptGuard worker) frame
    generalize socketServer.accept.awaitSuspend
      (server.workers worker).ioUring (.acceptGuard worker) frame = result
      at ring ⊢
    have grows : ∀ address, address ∈ server.outstanding worker →
        address ∈ result.2.outstanding := by
      intro address member
      rcases ring with same | queued
      · rw [same]
        exact member
      · rw [queued]
        exact IoUring.queueRequest_grows member
    have cq : result.2.cq = (server.workers worker).ioUring.cq := by
      rcases ring with same | queued
      · rw [same]
      · rw [queued, IoUring.queueRequest_cq]
    refine ⟨?_, ?_, ?_⟩
    · exact setWorker_forall worker _
        (fun other contents => contents.phase = (server.workers other).phase)
        rfl fun _ => rfl
    · exact setWorker_forall worker _
        (fun other contents => ∀ address ∈ server.outstanding other,
          address ∈ contents.ioUring.outstanding)
        grows fun _ _ member => member
    · exact setWorker_forall worker _
        (fun other contents =>
          contents.ioUring.cq = (server.workers other).ioUring.cq ∧
            contents.dispatched = (server.workers other).dispatched)
        ⟨cq, rfl⟩ fun _ => ⟨rfl, rfl⟩

end Quiet

/-! A completion is stored in the `sqe_data` it carries the address of. -/

theorem RingsMatch.transfer (matched : RingsMatch before)
    (rings : ∀ worker, (after.workers worker).ioUring =
      (before.workers worker).ioUring)
    (awaits : ∀ worker address frame,
      before.Awaits worker address frame → after.Awaits worker address frame)
    (unstarted : ∀ worker, ¬ after.Started worker →
      after.workers worker = {})
    (started : ∀ frame contents, after.frames.cell frame = some contents →
      after.Started contents.thread) : RingsMatch after where
  kept := fun worker => by
    rw [rings]
    exact matched.kept worker
  awaited := fun worker address member => by
    rw [outstanding, rings] at member
    obtain ⟨frame, earlier⟩ := matched.awaited worker address member
    exact ⟨frame, awaits worker address frame earlier⟩
  unstarted := unstarted
  started := started

structure Stored (before after : Server) (worker : WorkerId)
    (address : SqeAddr) (frame : FrameId) : Prop where
  matched : RingsMatch after
  awaits : after.Awaits worker address frame
  rings : ∀ other, (after.workers other).ioUring =
    (before.workers other).ioUring
  phase : ∀ other, (after.workers other).phase =
    (before.workers other).phase
  dispatched : ∀ other, (after.workers other).dispatched =
    (before.workers other).dispatched

/-- Nothing but the data of the coroutine that awaits changes. -/
theorem RingsMatch.storeInside (matched : RingsMatch server)
    (started : server.Started worker)
    (awaits : server.Awaits worker address frame) {point : FramePoint}
    (still : Server.Awaits
      { server with frames := server.frames.put frame ⟨worker, point⟩ }
      worker address frame) :
    Stored server
      { server with frames := server.frames.put frame ⟨worker, point⟩ }
      worker address frame := by
  refine ⟨matched.transfer (fun _ => rfl) ?_ matched.unstarted ?_, still,
    fun _ => rfl, fun _ => rfl, fun _ => rfl⟩
  · intro other address' resumed earlier
    by_cases isFrame : resumed = frame
    · subst isFrame
      obtain ⟨rfl, rfl⟩ := awaits.unique earlier
      exact still
    · exact earlier.of_same (Heap.cell_put_other _ _ isFrame) rfl
  · intro other contents stored
    rcases Heap.put_cases stored with ⟨rfl, rfl⟩ | ⟨-, old⟩
    · exact started
    · exact matched.started other contents old

theorem RingsMatch.storeGuard (matched : RingsMatch server)
    (started : server.Started worker)
    (awaits : server.Awaits worker address frame) {contents : Worker}
    (ring : contents.ioUring = (server.workers worker).ioUring)
    (acceptor : contents.acceptor = (server.workers worker).acceptor)
    (phase : contents.phase = (server.workers worker).phase)
    (dispatched : contents.dispatched = (server.workers worker).dispatched) :
    Stored server (server.setWorker worker contents) worker address
      frame := by
  refine ⟨matched.setWorker ?_ ?_ acceptor ?_, awaits.of_same rfl ?_, ?_, ?_,
    ?_⟩
  · rw [ring]
    exact matched.kept worker
  · rw [ring]
    exact fun _ member => member
  · rw [phase]
    exact started
  · rw [setWorker_self]
    exact acceptor
  · exact setWorker_forall worker contents
      (fun other contents => contents.ioUring = (server.workers other).ioUring)
      ring fun _ => rfl
  · exact setWorker_forall worker contents
      (fun other contents => contents.phase = (server.workers other).phase)
      phase fun _ => rfl
  · exact setWorker_forall worker contents
      (fun other contents =>
        contents.dispatched = (server.workers other).dispatched)
      dispatched fun _ => rfl

theorem RingsMatch.storeResult (matched : RingsMatch server)
    (started : server.Started worker)
    (awaits : server.Awaits worker address frame) (res : Int) (flags : Nat) :
    Stored server (server.storeResult address res flags) worker address
      frame := by
  have original := awaits
  cases awaits with
  | accept names suspended =>
      obtain ⟨acceptGuard, present, named⟩ := Option.bind_eq_some_iff.mp names
      obtain ⟨socketServer, listening, guarded⟩ :=
        Option.bind_eq_some_iff.mp present
      simp only [Server.storeResult, listening, guarded, Option.map_some]
      exact matched.storeGuard started original rfl (named.trans names.symm)
        rfl rfl
  | recv names suspended =>
      simp only [Server.storeResult, suspended]
      refine matched.storeInside started original ?_
      refine .recv ?_ (Heap.cell_put_self _ _ _)
      exact names
  | send names suspended =>
      simp only [Server.storeResult, suspended]
      refine matched.storeInside started original ?_
      refine .send ?_ (Heap.cell_put_self _ _ _)
      exact names

/-! The coroutine the event loop resumes. -/

theorem Server.Awaits.sqeData_coroutine
    (awaits : server.Awaits worker address frame) :
    ∃ data, server.sqeData address = some data ∧
      data.coroutine = some frame := by
  cases awaits with
  | accept names suspended =>
      obtain ⟨acceptGuard, present, named⟩ := Option.bind_eq_some_iff.mp names
      obtain ⟨socketServer, listening, guarded⟩ :=
        Option.bind_eq_some_iff.mp present
      refine ⟨acceptGuard.sqeData, ?_, named⟩
      simp [sqeData, listening, guarded]
  | recv names suspended =>
      exact ⟨_, by simp only [sqeData, suspended], names⟩
  | send names suspended =>
      exact ⟨_, by simp only [sqeData, suspended], names⟩

theorem Server.Awaits.running
    (awaits : server.Awaits worker address frame)
    (started : server.Started worker)
    (answered : address ∉ server.outstanding worker) :
    server.Running worker frame := by
  obtain ⟨point, stored⟩ := awaits.stored
  refine ⟨started, ?_, threadOf_stored stored, Heap.lt_next stored⟩
  intro other address' member awaits'
  obtain ⟨rfl, rfl⟩ := awaits.unique awaits'
  exact answered member

theorem RingsMatch.resume (matched : RingsMatch server)
    (started : server.Started worker)
    (awaits : server.Awaits worker address frame)
    (answered : address.isAcceptGuard = false →
      address ∉ server.outstanding worker) (generated : SessionId) :
    RingsMatch (server.resume worker frame generated) := by
  have original := awaits
  cases awaits with
  | accept names suspended =>
      simp only [Server.resume, suspended]
      exact matched.resumeAcceptClients started suspended generated
  | recv names suspended =>
      simp only [Server.resume, suspended]
      have running := original.running started (answered rfl)
      exact (Keeps.resumeHandleSession matched running _ _ _).matched
  | send names suspended =>
      simp only [Server.resume, suspended]
      have running := original.running started (answered rfl)
      exact (running.endFrame matched none).matched

/-! One step. -/

theorem RingsMatch.seen (matched : RingsMatch server) {cqe : Cqe}
    {rest : List Cqe} (started : server.Started worker)
    (next : (server.workers worker).ioUring.cq = cqe :: rest) :
    RingsMatch (server.setWorker worker
      ((server.workers worker).seen cqe rest)) := by
  obtain ⟨address, carries⟩ := Option.ne_none_iff_exists'.mp
    ((matched.kept worker).carried cqe (by simp [next]))
  refine matched.setWorker ((matched.kept worker).seen next) ?_ rfl started
  intro other member
  exact (IoUring.outstanding_seen next carries).symm.subset
    (List.mem_cons_of_mem _ member)

theorem RingsMatch.resume_quiet (matched : RingsMatch server)
    (started : server.Started worker)
    (awaits : server.Awaits worker address frame)
    (answered : address.isAcceptGuard = false →
      address ∉ server.outstanding worker) (generated : SessionId) :
    Quiet server (server.resume worker frame generated) := by
  have original := awaits
  cases awaits with
  | accept names suspended =>
      simp only [Server.resume, suspended, Server.resumeAcceptClients]
      split
      · exact .of_workers rfl
      · split
        · exact .awaitAccept
        next client accepted =>
          have called := Keeps.handleClientSession matched started
            (some client) generated
          have spawned := Keeps.spawn called.matched (called.started started)
            (server.handleClientSession worker (some client) generated).2
          exact (Quiet.of_above called.above).trans
            ((Quiet.of_above spawned.above).trans .awaitAccept)
  | recv names suspended =>
      simp only [Server.resume, suspended]
      have running := original.running started (answered rfl)
      exact .of_above (Keeps.resumeHandleSession matched running _ _ _).above
  | send names suspended =>
      simp only [Server.resume, suspended]
      have running := original.running started (answered rfl)
      exact .of_above (running.endFrame matched none).above

/-- The server when the event loop has taken a completion and stored it. -/
def Server.delivered (server : Server) (worker : WorkerId) (cqe : Cqe)
    (rest : List Cqe) (address : SqeAddr) : Server :=
  (server.setWorker worker
    ((server.workers worker).seen cqe rest)).storeResult address cqe.res
      cqe.flags

/-- What the event loop finds when it takes a completion: a coroutine suspended
at the await that owns the completion's `sqe_data`, and this one it resumes. -/
structure Delivery (server : Server) (worker : WorkerId) (cqe : Cqe)
    (rest : List Cqe) (address : SqeAddr) (frame : FrameId) : Prop where
  carries : cqe.userData = some address
  awaits : server.Awaits worker address frame
  taken : (server.setWorker worker
    ((server.workers worker).seen cqe rest)).Awaits worker address frame
  stored : Stored (server.setWorker worker
    ((server.workers worker).seen cqe rest))
    (server.delivered worker cqe rest address) worker address frame
  started : (server.delivered worker cqe rest address).Started worker
  answered : address.isAcceptGuard = false →
    address ∉ (server.delivered worker cqe rest address).outstanding worker
  resumes : ∀ generated, (server.setWorker worker
    ((server.workers worker).seen cqe rest)).dispatchCqe worker cqe
      generated =
    (server.delivered worker cqe rest address).resume worker frame generated

theorem RingsMatch.deliver (matched : RingsMatch server) {cqe : Cqe}
    {rest : List Cqe} (started : server.Started worker)
    (next : (server.workers worker).ioUring.cq = cqe :: rest) :
    ∃ address frame, Delivery server worker cqe rest address frame := by
  obtain ⟨address, carries⟩ := Option.ne_none_iff_exists'.mp
    ((matched.kept worker).carried cqe (by simp [next]))
  have member : address ∈ server.outstanding worker :=
    (IoUring.outstanding_seen next carries).symm.subset (by simp)
  obtain ⟨frame, awaits⟩ := matched.awaited worker address member
  have running : (server.setWorker worker
      ((server.workers worker).seen cqe rest)).Started worker := by
    rw [Started, setWorker_self]
    exact started
  have taken : (server.setWorker worker
      ((server.workers worker).seen cqe rest)).Awaits worker address frame :=
    awaits.of_same rfl (by rw [setWorker_self]; rfl)
  have stored := (matched.seen started next).storeResult running taken cqe.res
    cqe.flags
  refine ⟨address, frame, carries, awaits, taken, stored, ?_, ?_, ?_⟩
  · rw [Started, delivered, stored.phase]
    exact running
  · intro single
    rw [outstanding, delivered, stored.rings, setWorker_self]
    exact (matched.kept worker).not_mem_seen next carries single
  · intro generated
    obtain ⟨data, found, named⟩ := taken.sqeData_coroutine
    simp only [dispatchCqe, carries, found, named, delivered]

theorem Delivery.quiet {cqe : Cqe} {rest : List Cqe}
    (delivery : Delivery server worker cqe rest address frame)
    (generated : SessionId) :
    Quiet (server.delivered worker cqe rest address)
      ((server.setWorker worker ((server.workers worker).seen cqe
        rest)).dispatchCqe worker cqe generated) := by
  rw [delivery.resumes]
  exact delivery.stored.matched.resume_quiet delivery.started
    delivery.stored.awaits delivery.answered generated

theorem RingsMatch.dispatch_phase (matched : RingsMatch server) {cqe : Cqe}
    {rest : List Cqe} (started : server.Started worker)
    (next : (server.workers worker).ioUring.cq = cqe :: rest)
    (generated : SessionId) (other : WorkerId) :
    (((server.setWorker worker ((server.workers worker).seen cqe
      rest)).dispatchCqe worker cqe generated).workers other).phase =
        (server.workers other).phase := by
  obtain ⟨address, frame, delivery⟩ := matched.deliver started next
  rw [(delivery.quiet _).phase, delivery.stored.phase]
  exact setWorker_forall worker ((server.workers worker).seen cqe rest)
    (fun other contents => contents.phase = (server.workers other).phase)
    rfl (fun _ => rfl) other

theorem RingsMatch.dispatch_completions (matched : RingsMatch server)
    {cqe : Cqe} {rest : List Cqe} (started : server.Started worker)
    (next : (server.workers worker).ioUring.cq = cqe :: rest)
    (generated : SessionId) (other : WorkerId) :
    (((server.setWorker worker ((server.workers worker).seen cqe
      rest)).dispatchCqe worker cqe generated).workers other).ioUring.cq =
        ((server.setWorker worker ((server.workers worker).seen cqe
          rest)).workers other).ioUring.cq ∧
    (((server.setWorker worker ((server.workers worker).seen cqe
      rest)).dispatchCqe worker cqe generated).workers other).dispatched =
        ((server.setWorker worker ((server.workers worker).seen cqe
          rest)).workers other).dispatched := by
  obtain ⟨address, frame, delivery⟩ := matched.deliver started next
  obtain ⟨cq, dispatched⟩ := (delivery.quiet generated).completions other
  rw [cq, dispatched, delivery.stored.rings, delivery.stored.dispatched]
  exact ⟨rfl, rfl⟩

theorem RingsMatch.dispatch_grows (matched : RingsMatch server) {cqe : Cqe}
    {rest : List Cqe} (started : server.Started worker)
    (next : (server.workers worker).ioUring.cq = cqe :: rest)
    (generated : SessionId) {address : SqeAddr}
    (member : address ∈ server.outstanding worker)
    (other : cqe.userData ≠ some address) :
    address ∈ ((server.setWorker worker ((server.workers worker).seen cqe
      rest)).dispatchCqe worker cqe generated).outstanding worker := by
  obtain ⟨carried, frame, delivery⟩ := matched.deliver started next
  apply (delivery.quiet generated).grows
  rw [outstanding, delivery.stored.rings, setWorker_self]
  have listed :=
    (IoUring.outstanding_seen next delivery.carries).subset member
  refine (List.mem_cons.mp listed).resolve_left fun same => ?_
  exact other (same ▸ delivery.carries)

theorem RingsMatch.dispatch (matched : RingsMatch server) {cqe : Cqe}
    {rest : List Cqe} (started : server.Started worker)
    (next : (server.workers worker).ioUring.cq = cqe :: rest)
    (generated : SessionId) :
    RingsMatch ((server.setWorker worker
      ((server.workers worker).seen cqe rest)).dispatchCqe worker cqe
        generated) := by
  obtain ⟨address, frame, delivery⟩ := matched.deliver started next
  rw [delivery.resumes]
  exact delivery.stored.matched.resume delivery.started delivery.stored.awaits
    delivery.answered generated

theorem Worker.complete_grows {contents next : Worker} {index : Nat}
    {result : KernelResult}
    (completed : contents.complete index result = some next) :
    ∀ address ∈ contents.ioUring.outstanding,
      address ∈ next.ioUring.outstanding := by
  intro address member
  obtain ⟨request, found, answered⟩ := complete_cases completed
  rcases answered with
    ⟨res, more, operation, rfl⟩ | ⟨cqe, buffers, operation, received, rfl⟩ |
      ⟨buf, res, operation, rfl⟩
  · cases more with
    | true =>
        rw [if_pos rfl, IoUring.outstanding_posted rfl]
        exact List.mem_append_left _ member
    | false =>
        exact (IoUring.outstanding_completed found rfl).symm.subset member
  · exact (IoUring.outstanding_completed found
      (ProvidedBuffers.completeRecv_userData received)).symm.subset member
  · exact (IoUring.outstanding_completed found rfl).symm.subset member

theorem RingsMatch.complete (matched : RingsMatch server) {index : Nat}
    {result : KernelResult} {contents : Worker}
    (completed : (server.workers worker).complete index result =
      some contents) : RingsMatch (server.setWorker worker contents) := by
  have started : server.Started worker := by
    intro notStarted
    rw [matched.unstarted worker (not_not.mpr notStarted)] at completed
    cases completed
  obtain ⟨request, found, answered⟩ := Worker.complete_cases completed
  have kept := matched.kept worker
  have present : request.userData ∈ server.outstanding worker := by
    rw [outstanding, IoUring.mem_outstanding]
    exact Or.inr (Or.inl ⟨request, List.mem_of_getElem? found, rfl⟩)
  have last : ∀ cqe : Cqe, cqe.userData = some request.userData →
      ∀ address ∈ IoUring.outstanding
          { (server.workers worker).ioUring with
            inflight := (server.workers worker).ioUring.inflight.eraseIdx index
            cq := (server.workers worker).ioUring.cq ++ [cqe] },
        address ∈ server.outstanding worker :=
    fun cqe carries address member =>
      (IoUring.outstanding_completed found carries).subset member
  rcases answered with
    ⟨res, more, operation, rfl⟩ | ⟨cqe, buffers, operation, received, rfl⟩ |
      ⟨buf, res, operation, rfl⟩
  · cases more with
    | false =>
        exact matched.setWorker (kept.completed found rfl) (last _ rfl) rfl
          started
    | true =>
        have isGuard : request.userData.isAcceptGuard = true :=
          (kept.fits request (Or.inr (List.mem_of_getElem?
            found))).isAcceptGuard.mpr operation
        refine matched.setWorker (kept.posted rfl isGuard) ?_ rfl started
        intro address member
        rw [if_pos rfl, IoUring.outstanding_posted rfl, List.mem_append,
          List.mem_singleton] at member
        rcases member with earlier | rfl
        · exact earlier
        · exact present
  · have carries := ProvidedBuffers.completeRecv_userData received
    exact matched.setWorker (kept.completed found carries) (last _ carries)
      rfl started
  · exact matched.setWorker (kept.completed found rfl) (last _ rfl) rfl
      started

theorem RingsMatch.acceptClients (matched : RingsMatch server)
    (started : server.Started worker) :
    RingsMatch (server.acceptClients worker).1 := by
  have allocated := Keeps.allocateFrame matched
  have running : server.allocateFrame.Running worker server.frames.next :=
    .new started
  unfold Server.acceptClients
  dsimp only
  split
  · exact (running.endFrame allocated.matched none).matched
  · exact allocated.matched.awaitAccept started running.thread
      fun other address member awaits =>
        absurd awaits (running.idle other address member)

theorem Server.acceptClients_phase (other : WorkerId) :
    ((server.acceptClients worker).1.workers other).phase =
      (server.workers other).phase := by
  unfold acceptClients
  dsimp only
  split
  · rfl
  · exact Quiet.awaitAccept.phase other

theorem Quiet.startWorker (outcome : InitOutcome) :
    Quiet (server.setWorker worker (initStages outcome
        { server.workers worker with phase := .looping }).1)
      (server.startWorker worker outcome) := by
  unfold Server.startWorker
  dsimp only
  split
  · refine Quiet.trans ?_ (.of_workers spawn_workers)
    unfold Server.acceptClients
    dsimp only
    split
    · exact .of_workers rfl
    · refine Quiet.trans ?_ .awaitAccept
      exact .of_workers rfl
  · exact .of_workers rfl

theorem RingsMatch.startWorker (matched : RingsMatch server)
    (unstarted : (server.workers worker).phase = .notStarted)
    (outcome : InitOutcome) :
    RingsMatch (server.startWorker worker outcome) := by
  have fresh := matched.unstarted worker (not_not.mpr unstarted)
  obtain ⟨phase, ring, -⟩ := initStages_same outcome
    { server.workers worker with phase := .looping }
  have sockets := initStages_socketServer outcome
    { server.workers worker with phase := .looping }
  unfold Server.startWorker
  dsimp only
  generalize initStages outcome
    { server.workers worker with phase := .looping } = initialized at *
  have initial : RingsMatch (server.setWorker worker initialized.1) := by
    refine matched.setWorker ?_ ?_ ?_ ?_
    · rw [ring, fresh]
      exact .empty
    · rw [ring, fresh]
      simp [IoUring.outstanding]
    · rcases sockets with ⟨-, same⟩ | ⟨-, rawFd, listening⟩
      · rw [Worker.acceptor, same]
        rfl
      · rw [Worker.acceptor, listening, fresh]
        rfl
    · rw [phase]
      exact Phase.noConfusion
  have started : (server.setWorker worker initialized.1).Started worker := by
    rw [Started, setWorker_self, phase]
    exact Phase.noConfusion
  split
  · refine (Keeps.spawn (initial.acceptClients started) ?_ _).matched
    rw [Started, acceptClients_phase]
    exact started
  · exact initial

theorem RingsMatch.phase (matched : RingsMatch server) {contents : Worker}
    (ring : contents.ioUring = (server.workers worker).ioUring)
    (socket : contents.socketServer = (server.workers worker).socketServer)
    (running : contents.phase ≠ .notStarted) :
    RingsMatch (server.setWorker worker contents) := by
  refine matched.setWorker ?_ ?_ ?_ running
  · rw [ring]
    exact matched.kept worker
  · rw [ring]
    exact fun _ member => member
  · rw [Worker.acceptor, socket]
    rfl

theorem RingsMatch.step (matched : RingsMatch before) {label : Label}
    (stepped : Stepped before label after) : RingsMatch after := by
  cases stepped with
  | start unstarted => exact matched.startWorker unstarted _
  | @submit worker looping =>
      exact matched.setWorker (matched.kept worker).submit
        (fun _ member => IoUring.outstanding_submit.subset member) rfl
        Phase.noConfusion
  | submitFails looping =>
      exact matched.phase rfl rfl Phase.noConfusion
  | @wake worker submitted waiting present =>
      refine matched.phase rfl rfl ?_
      rw [Worker.wake]
      dsimp only
      split <;> exact Phase.noConfusion
  | dispatch dispatching next =>
      exact matched.dispatch
        (started_of_phase dispatching Phase.noConfusion) next _
  | endBatch dispatching empty =>
      exact matched.phase rfl rfl Phase.noConfusion
  | complete completed => exact matched.complete completed
  | cleanup swept => exact matched.congr rfl rfl
  | tick => exact matched.congr rfl rfl

theorem ringsMatch_initial : RingsMatch {} where
  kept := fun _ => .empty
  awaited := fun worker address member => by
    simp [outstanding, IoUring.outstanding] at member
  unstarted := fun _ _ => rfl
  started := fun frame contents stored => by cases stored

theorem ringsMatch_of_reachable (reachable : serverSystem.Reachable server) :
    RingsMatch server := by
  refine TransitionSystem.Invariant.reachable ⟨?_, ?_⟩ reachable
  · rintro _ rfl
    exact ringsMatch_initial
  · intro before label after matched step
    exact matched.step (step_cases step).2

end CoUring
