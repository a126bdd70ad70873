import CoUring.Io.Requests
import CoUring.Server.Machine

namespace CoUring

open Foundation

/-- The coroutine the accept guard's `sqe_data` names. -/
def Worker.acceptor (worker : Worker) : Option FrameId :=
  (worker.socketServer.bind SocketServer.multishotAcceptGuard).bind
    fun acceptGuard => acceptGuard.sqeData.coroutine

namespace Server

def outstanding (server : Server) (worker : WorkerId) : List SqeAddr :=
  (server.workers worker).ioUring.outstanding

def Started (server : Server) (worker : WorkerId) : Prop :=
  (server.workers worker).phase ≠ .notStarted

/-- A coroutine of the worker is suspended at the await that owns the
`sqe_data` at an address, and that `sqe_data` names it. -/
inductive Awaits (server : Server) (worker : WorkerId) :
    SqeAddr → FrameId → Prop
  | accept {frame : FrameId}
      (names : (server.workers worker).acceptor = some frame)
      (suspended : server.frames.cell frame = some ⟨worker, .acceptClients⟩) :
      Awaits server worker (.acceptGuard worker) frame
  | recv {frame : FrameId} {session : SessionPtr} {sessionId : SessionId}
      {awaiter : RecvAwaiter}
      (names : awaiter.sqeData.coroutine = some frame)
      (suspended : server.frames.cell frame =
        some ⟨worker, .handleSession session sessionId awaiter⟩) :
      Awaits server worker (.recvAwaiter frame .awaited) frame
  | send {frame : FrameId} {session : SessionPtr} {awaiter : SendAwaiter}
      (names : awaiter.sqeData.coroutine = some frame)
      (suspended : server.frames.cell frame =
        some ⟨worker, .sendData session awaiter⟩) :
      Awaits server worker (.sendAwaiter frame) frame

def Idle (server : Server) (frame : FrameId) : Prop :=
  ∀ worker address, address ∈ server.outstanding worker →
    ¬ server.Awaits worker address frame

end Server

structure RingsMatch (server : Server) : Prop where
  kept : ∀ worker, (server.workers worker).ioUring.Kept
  awaited : ∀ worker address, address ∈ server.outstanding worker →
    ∃ frame, server.Awaits worker address frame
  unstarted : ∀ worker, ¬ server.Started worker → server.workers worker = {}
  started : ∀ frame contents, server.frames.cell frame = some contents →
    server.Started contents.thread

variable {server before middle after : Server} {worker : WorkerId}
  {frame bound : FrameId}

namespace Server

/-! Projections of the elementary changes. -/

@[simp] theorem setWorker_self (contents : Worker) :
    (server.setWorker worker contents).workers worker = contents := by
  simp [setWorker]

theorem setWorker_other {other : WorkerId} (contents : Worker)
    (different : other ≠ worker) :
    (server.setWorker worker contents).workers other =
      server.workers other := by
  simp [setWorker, different]

/-- What holds of the worker that changed, and of each of the others before,
holds of every worker. -/
theorem workers_forall (property : WorkerId → Worker → Prop)
    (changed : ∀ other, other ≠ worker →
      after.workers other = before.workers other)
    (here : property worker (after.workers worker))
    (others : ∀ other, property other (before.workers other))
    (other : WorkerId) : property other (after.workers other) := by
  by_cases same : other = worker
  · subst same
    exact here
  · rw [changed other same]
    exact others other

theorem setWorker_forall (worker : WorkerId) (contents : Worker)
    (property : WorkerId → Worker → Prop) (here : property worker contents)
    (others : ∀ other, property other (server.workers other))
    (other : WorkerId) :
    property other ((server.setWorker worker contents).workers other) := by
  refine workers_forall property (fun _ => setWorker_other contents) ?_
    others other
  rw [setWorker_self]
  exact here

theorem started_of_phase {phase : Phase}
    (isPhase : (server.workers worker).phase = phase)
    (runs : phase ≠ .notStarted) : server.Started worker := by
  rw [Started, isPhase]
  exact runs

@[simp] theorem setIoUring_frames (ring : IoUring) :
    (server.setIoUring worker ring).frames = server.frames := rfl

theorem setIoUring_same (server : Server) (worker : WorkerId)
    (ring : IoUring) (other : WorkerId) :
    ((server.setIoUring worker ring).workers other).phase =
        (server.workers other).phase ∧
      ((server.setIoUring worker ring).workers other).acceptor =
        (server.workers other).acceptor :=
  setWorker_forall worker { server.workers worker with ioUring := ring }
    (fun other contents =>
      contents.phase = (server.workers other).phase ∧
        contents.acceptor = (server.workers other).acceptor)
    ⟨rfl, rfl⟩ (fun _ => ⟨rfl, rfl⟩) other

@[simp] theorem setManager_frames (manager : SessionManager) :
    (server.setManager manager).frames = server.frames := rfl

@[simp] theorem setManager_manager (manager : SessionManager) :
    (server.setManager manager).manager = manager := rfl

@[simp] theorem suspendAt_workers (point : FramePoint) :
    (server.suspendAt worker frame point).workers = server.workers := rfl

@[simp] theorem endFrame_frames (shared : Option SessionPtr) :
    (server.endFrame frame shared).frames = server.frames.free frame := rfl

@[simp] theorem allocateFrame_workers :
    server.allocateFrame.workers = server.workers := rfl

@[simp] theorem allocateFrame_next :
    server.allocateFrame.frames.next = server.frames.next + 1 := rfl

theorem spawn_workers {callee : FrameId} :
    (server.spawn worker callee).workers = server.workers := by
  unfold spawn awaitTask
  split <;> rfl

theorem suspendAt_self (point : FramePoint) :
    (server.suspendAt worker frame point).frames.cell frame =
      some ⟨server.threadOf worker frame, point⟩ := by
  simp [suspendAt]

theorem suspendAt_other {other : FrameId} (point : FramePoint)
    (different : other ≠ frame) :
    (server.suspendAt worker frame point).frames.cell other =
      server.frames.cell other := by
  simp [suspendAt, Heap.cell_put_other _ _ different]

theorem suspendAt_cases {other : FrameId} {point : FramePoint}
    {contents : Frame}
    (stored : (server.suspendAt worker frame point).frames.cell other =
      some contents) :
    other = frame ∧ contents = ⟨server.threadOf worker frame, point⟩ ∨
      other ≠ frame ∧ server.frames.cell other = some contents :=
  Heap.put_cases stored

@[simp] theorem setWorker_threadOf {other : WorkerId} (contents : Worker) :
    (server.setWorker other contents).threadOf worker frame =
      server.threadOf worker frame := rfl

theorem threadOf_new (new : server.frames.cell frame = none) :
    server.threadOf worker frame = worker := by
  simp [threadOf, new]

theorem threadOf_stored {contents : Frame}
    (stored : server.frames.cell frame = some contents) :
    server.threadOf worker frame = contents.thread := by
  simp [threadOf, stored]

theorem Awaits.stored {address : SqeAddr}
    (awaits : server.Awaits worker address frame) :
    ∃ point, server.frames.cell frame = some ⟨worker, point⟩ := by
  cases awaits with
  | accept names suspended => exact ⟨_, suspended⟩
  | recv names suspended => exact ⟨_, suspended⟩
  | send names suspended => exact ⟨_, suspended⟩

theorem Awaits.of_same {address : SqeAddr}
    (awaits : before.Awaits worker address frame)
    (cell : after.frames.cell frame = before.frames.cell frame)
    (acceptor : (after.workers worker).acceptor =
      (before.workers worker).acceptor) :
    after.Awaits worker address frame := by
  cases awaits with
  | accept names suspended =>
      exact .accept (acceptor.trans names) (cell.trans suspended)
  | recv names suspended => exact .recv names (cell.trans suspended)
  | send names suspended => exact .send names (cell.trans suspended)

theorem Awaits.frame_eq {address : SqeAddr} {inside : FrameId}
    (awaits : server.Awaits worker address frame)
    (lies : address.frame = some inside) : inside = frame := by
  cases awaits with
  | accept names suspended => cases lies
  | recv names suspended => exact (Option.some.inj lies).symm
  | send names suspended => exact (Option.some.inj lies).symm

end Server

open Server

theorem Server.idle_new
    (new : server.frames.cell frame = none) : server.Idle frame := by
  intro worker address member awaits
  obtain ⟨point, stored⟩ := awaits.stored
  rw [new] at stored
  cases stored

theorem RingsMatch.congr (matched : RingsMatch before)
    (cells : after.frames.cell = before.frames.cell)
    (workers : after.workers = before.workers) : RingsMatch after where
  kept := by
    rw [workers]
    exact matched.kept
  awaited := fun worker address member => by
    rw [outstanding, workers] at member
    obtain ⟨frame, awaits⟩ := matched.awaited worker address member
    exact ⟨frame, awaits.of_same (by rw [cells]) (by rw [workers])⟩
  unstarted := fun worker notStarted => by
    rw [Started, workers] at notStarted
    rw [workers]
    exact matched.unstarted worker notStarted
  started := fun frame contents stored => by
    rw [cells] at stored
    rw [Started, workers]
    exact matched.started frame contents stored

theorem RingsMatch.fail (matched : RingsMatch server) :
    RingsMatch server.fail := matched.congr rfl rfl

theorem RingsMatch.setWorker (matched : RingsMatch server)
    {contents : Worker} (kept : contents.ioUring.Kept)
    (fewer : ∀ address ∈ contents.ioUring.outstanding,
      address ∈ server.outstanding worker)
    (acceptor : contents.acceptor = (server.workers worker).acceptor)
    (running : contents.phase ≠ .notStarted) :
    RingsMatch (server.setWorker worker contents) := by
  have acceptors := setWorker_forall worker contents
    (fun other contents =>
      contents.acceptor = (server.workers other).acceptor)
    acceptor fun _ => rfl
  have earlier := setWorker_forall worker contents
    (fun other contents => ∀ address ∈ contents.ioUring.outstanding,
      address ∈ server.outstanding other)
    fewer fun _ _ member => member
  have persists := setWorker_forall worker contents
    (fun other contents =>
      server.Started other → contents.phase ≠ .notStarted)
    (fun _ => running) fun _ started => started
  refine ⟨?_, ?_, ?_, ?_⟩
  · exact setWorker_forall worker contents
      (fun _ contents => contents.ioUring.Kept) kept matched.kept
  · intro other address member
    obtain ⟨frame, awaits⟩ :=
      matched.awaited other address (earlier other address member)
    exact ⟨frame, awaits.of_same rfl (acceptors other)⟩
  · exact setWorker_forall worker _
      (fun _ contents => ¬ contents.phase ≠ .notStarted → contents = {})
      (absurd running) matched.unstarted
  · intro frame stored isStored
    exact persists stored.thread (matched.started frame stored isStored)

theorem RingsMatch.suspendAt (matched : RingsMatch server)
    (idle : server.Idle frame) (running : server.Started worker)
    (point : FramePoint) :
    RingsMatch (server.suspendAt worker frame point) := by
  refine ⟨matched.kept, ?_, matched.unstarted, ?_⟩
  · intro other address member
    obtain ⟨resumed, awaits⟩ := matched.awaited other address member
    have different : resumed ≠ frame := by
      rintro rfl
      exact idle other address member awaits
    exact ⟨resumed, awaits.of_same (suspendAt_other point different) rfl⟩
  · intro other contents stored
    rcases suspendAt_cases stored with ⟨rfl, rfl⟩ | ⟨-, old⟩
    · cases earlier : server.frames.cell other with
      | none =>
          rw [threadOf_new earlier]
          exact running
      | some old =>
          rw [threadOf_stored earlier]
          exact matched.started other old earlier
    · exact matched.started other contents old

theorem RingsMatch.endFrame (matched : RingsMatch server)
    (idle : server.Idle frame) (shared : Option SessionPtr) :
    RingsMatch (server.endFrame frame shared) := by
  refine ⟨matched.kept, ?_, matched.unstarted, ?_⟩
  · intro other address member
    obtain ⟨resumed, awaits⟩ := matched.awaited other address member
    have different : resumed ≠ frame := by
      rintro rfl
      exact idle other address member awaits
    exact ⟨resumed, awaits.of_same (Heap.cell_free_other _ different) rfl⟩
  · intro other contents stored
    exact matched.started other contents (Heap.free_cases stored).2

theorem RingsMatch.queue (matched : RingsMatch server) {request : Request}
    (awaits : server.Awaits worker request.userData frame)
    (fits : request.userData.Fits request.operation)
    (new : request.userData.isAcceptGuard = false →
      request.userData ∉ server.outstanding worker)
    (running : server.Started worker) :
    RingsMatch (server.setIoUring worker
      ((server.workers worker).ioUring.queueRequest request)) := by
  have phases := setIoUring_same server worker
    ((server.workers worker).ioUring.queueRequest request)
  have earlier := setWorker_forall worker
    { server.workers worker with
      ioUring := (server.workers worker).ioUring.queueRequest request }
    (fun other contents => ∀ address ∈ contents.ioUring.outstanding,
      address ∈ server.outstanding other ∨
        other = worker ∧ address = request.userData)
    (fun _ member => (IoUring.mem_outstanding_queueRequest member).imp_right
      fun added => ⟨rfl, added⟩)
    fun _ _ member => .inl member
  refine ⟨?_, ?_, ?_, ?_⟩
  · exact setWorker_forall worker _
      (fun _ contents => contents.ioUring.Kept)
      ((matched.kept worker).queueRequest fits new) matched.kept
  · intro other address member
    rcases earlier other address member with old | ⟨rfl, rfl⟩
    · obtain ⟨resumed, oldAwaits⟩ := matched.awaited other address old
      exact ⟨resumed, oldAwaits.of_same rfl (phases other).2⟩
    · exact ⟨frame, awaits.of_same rfl (phases other).2⟩
  · exact setWorker_forall worker _
      (fun _ contents => ¬ contents.phase ≠ .notStarted → contents = {})
      (absurd running) matched.unstarted
  · intro other contents stored
    rw [Started, (phases _).1]
    exact matched.started other contents stored

/-! What a running coroutine does to the frames and requests of others. -/

/-- All changes lie in frames at or beyond `bound`. -/
structure Above (bound : FrameId) (before after : Server) : Prop where
  cells : ∀ frame, frame < bound →
    after.frames.cell frame = before.frames.cell frame
  next : before.frames.next ≤ after.frames.next
  phase : ∀ worker,
    (after.workers worker).phase = (before.workers worker).phase
  acceptor : ∀ worker,
    (after.workers worker).acceptor = (before.workers worker).acceptor
  requests : ∀ worker address, address ∈ after.outstanding worker →
    address ∈ before.outstanding worker ∨
      ∃ frame, bound ≤ frame ∧ address.frame = some frame
  grows : ∀ worker address, address ∈ before.outstanding worker →
    address ∈ after.outstanding worker
  completions : ∀ worker,
    (after.workers worker).ioUring.cq = (before.workers worker).ioUring.cq ∧
      (after.workers worker).dispatched = (before.workers worker).dispatched

namespace Above

theorem trans (first : Above bound before middle)
    (second : Above bound middle after) : Above bound before after where
  cells := fun frame below =>
    (second.cells frame below).trans (first.cells frame below)
  next := first.next.trans second.next
  phase := fun worker => (second.phase worker).trans (first.phase worker)
  acceptor := fun worker =>
    (second.acceptor worker).trans (first.acceptor worker)
  requests := fun worker address member =>
    (second.requests worker address member).elim
      (first.requests worker address) Or.inr
  grows := fun worker address member =>
    second.grows worker address (first.grows worker address member)
  completions := fun worker =>
    ⟨(second.completions worker).1.trans (first.completions worker).1,
      (second.completions worker).2.trans (first.completions worker).2⟩

theorem mono {lower : FrameId} (above : Above bound before after)
    (below : lower ≤ bound) : Above lower before after where
  cells := fun frame less =>
    above.cells frame (Nat.lt_of_lt_of_le less below)
  next := above.next
  phase := above.phase
  acceptor := above.acceptor
  requests := fun worker address member =>
    (above.requests worker address member).imp_right
      fun ⟨frame, atLeast, lies⟩ =>
        ⟨frame, Nat.le_trans below atLeast, lies⟩
  grows := above.grows
  completions := above.completions

theorem congr (next : before.frames.next ≤ after.frames.next)
    (cells : after.frames.cell = before.frames.cell)
    (workers : after.workers = before.workers) :
    Above bound before after where
  cells := fun _ _ => by rw [cells]
  next := next
  phase := fun _ => by rw [workers]
  acceptor := fun _ => by rw [workers]
  requests := fun worker address member => by
    rw [outstanding, workers] at member
    exact Or.inl member
  grows := fun worker address member => by
    rw [outstanding, workers]
    exact member
  completions := fun _ => by rw [workers]; exact ⟨rfl, rfl⟩

theorem idle (above : Above bound before after) (below : frame < bound)
    (idle : before.Idle frame) : after.Idle frame := by
  intro worker address member awaits
  rcases above.requests worker address member with
    earlier | ⟨other, atLeast, lies⟩
  · exact idle worker address earlier (awaits.of_same
      (above.cells frame below).symm (above.acceptor worker).symm)
  · have same := awaits.frame_eq lies
    subst same
    exact absurd below (Nat.not_lt.mpr atLeast)

end Above

structure Keeps (bound : FrameId) (before after : Server) : Prop where
  matched : RingsMatch after
  above : Above bound before after

structure Server.Running (server : Server) (worker : WorkerId)
    (frame : FrameId) : Prop where
  started : server.Started worker
  idle : server.Idle frame
  thread : server.threadOf worker frame = worker
  allocated : frame < server.frames.next

namespace Keeps

theorem trans (first : Keeps bound before middle)
    (second : Keeps bound middle after) : Keeps bound before after :=
  ⟨second.matched, first.above.trans second.above⟩

theorem mono {lower : FrameId} (keeps : Keeps bound before after)
    (below : lower ≤ bound) : Keeps lower before after :=
  ⟨keeps.matched, keeps.above.mono below⟩

theorem congr (matched : RingsMatch before)
    (frames : after.frames = before.frames)
    (workers : after.workers = before.workers) :
    Keeps bound before after :=
  ⟨matched.congr (by rw [frames]) workers,
    .congr (by rw [frames]) (by rw [frames]) workers⟩

theorem started (keeps : Keeps bound before after)
    (running : before.Started worker) : after.Started worker := by
  rw [Started, keeps.above.phase worker]
  exact running

theorem setManager (keeps : Keeps bound before after)
    (manager : SessionManager) :
    Keeps bound before (after.setManager manager) :=
  keeps.trans (.congr keeps.matched rfl rfl)

theorem fail (matched : RingsMatch server) :
    Keeps bound server server.fail :=
  .congr matched rfl rfl

end Keeps

theorem Server.Running.persists (running : before.Running worker frame)
    (above : Above bound before after) (below : frame < bound) :
    after.Running worker frame where
  started := by
    rw [Started, above.phase worker]
    exact running.started
  idle := above.idle below running.idle
  thread := by
    rw [threadOf, above.cells frame below]
    exact running.thread
  allocated := Nat.lt_of_lt_of_le running.allocated above.next

theorem Server.Running.congr (running : before.Running worker frame)
    (frames : after.frames = before.frames)
    (workers : after.workers = before.workers) :
    after.Running worker frame := by
  have above : Above (frame + 1) before after :=
    .congr (by rw [frames]) (by rw [frames]) workers
  exact running.persists above (Nat.lt_succ_self _)

/-! The coroutines, innermost first. -/

theorem Keeps.allocateFrame (matched : RingsMatch server) :
    Keeps server.frames.next server server.allocateFrame :=
  ⟨matched.congr rfl rfl, .congr (Nat.le_succ _) rfl rfl⟩

theorem Server.Running.new (started : server.Started worker) :
    server.allocateFrame.Running worker server.frames.next where
  started := started
  idle := idle_new (Heap.cell_next _)
  thread := threadOf_new (Heap.cell_next _)
  allocated := Nat.lt_succ_self _

theorem Server.Running.suspendAt (running : server.Running worker frame)
    (matched : RingsMatch server) (point : FramePoint) :
    Keeps frame server (server.suspendAt worker frame point) where
  matched := matched.suspendAt running.idle running.started point
  above := {
    cells := fun other below =>
      suspendAt_other point (Nat.ne_of_lt below)
    next := by
      simp [Server.suspendAt, Heap.next_put]
    phase := fun _ => rfl
    acceptor := fun _ => rfl
    requests := fun _ _ member => Or.inl member
    grows := fun _ _ member => member
    completions := fun _ => ⟨rfl, rfl⟩ }

theorem Server.Running.endFrame (running : server.Running worker frame)
    (matched : RingsMatch server) (shared : Option SessionPtr) :
    Keeps frame server (server.endFrame frame shared) where
  matched := matched.endFrame running.idle shared
  above := {
    cells := fun _ below => Heap.cell_free_other _ (Nat.ne_of_lt below)
    next := Nat.le_refl _
    phase := fun _ => rfl
    acceptor := fun _ => rfl
    requests := fun _ _ member => Or.inl member
    grows := fun _ _ member => member
    completions := fun _ => ⟨rfl, rfl⟩ }

theorem Server.Running.awaitTask (running : server.Running worker frame)
    (matched : RingsMatch server) (callee : FrameId) (point : FramePoint) :
    Keeps frame server (server.awaitTask worker frame callee point) := by
  unfold Server.awaitTask
  split
  · exact .fail matched
  · exact running.suspendAt matched point

theorem Keeps.spawn (matched : RingsMatch server)
    (started : server.Started worker) (callee : FrameId) :
    Keeps server.frames.next server (server.spawn worker callee) :=
  (Keeps.allocateFrame matched).trans
    ((Running.new started).awaitTask (Keeps.allocateFrame matched).matched
      callee _)

theorem Server.Running.queue (running : server.Running worker frame)
    (matched : RingsMatch server) {point : FramePoint} {request : Request}
    (awaits : (server.suspendAt worker frame point).Awaits worker
      request.userData frame)
    (lies : request.userData.frame = some frame)
    (fits : request.userData.Fits request.operation) :
    Keeps frame server ((server.setIoUring worker
      ((server.workers worker).ioUring.queueRequest request)).suspendAt
        worker frame point) := by
  have asleep := running.suspendAt matched point
  have new : request.userData ∉ server.outstanding worker := by
    intro member
    obtain ⟨resumed, earlier⟩ := matched.awaited worker _ member
    have same : frame = resumed := earlier.frame_eq lies
    subst same
    exact running.idle worker _ member earlier
  refine ⟨asleep.matched.queue awaits fits (fun _ => new) running.started,
    asleep.above.trans ?_⟩
  have rings := setIoUring_same server worker
    ((server.workers worker).ioUring.queueRequest request)
  refine ⟨fun _ _ => rfl, Nat.le_refl _, fun other => (rings other).1,
    fun other => (rings other).2, ?_, ?_, ?_⟩
  · refine setWorker_forall worker _
      (fun other contents => ∀ address ∈ contents.ioUring.outstanding,
        address ∈ server.outstanding other ∨
          ∃ inside, frame ≤ inside ∧ address.frame = some inside)
      ?_ fun _ _ member => .inl member
    intro address member
    rcases IoUring.mem_outstanding_queueRequest member with earlier | rfl
    · exact .inl earlier
    · exact .inr ⟨frame, Nat.le_refl _, lies⟩
  · exact setWorker_forall worker _
      (fun other contents => ∀ address ∈ server.outstanding other,
        address ∈ contents.ioUring.outstanding)
      (fun _ => IoUring.queueRequest_grows) fun _ _ member => member
  · exact setWorker_forall worker _
      (fun other contents =>
        contents.ioUring.cq = (server.workers other).ioUring.cq ∧
          contents.dispatched = (server.workers other).dispatched)
      ⟨IoUring.queueRequest_cq _ _, rfl⟩ fun _ => ⟨rfl, rfl⟩

theorem Keeps.sendData (matched : RingsMatch server)
    (started : server.Started worker) (session : SessionPtr)
    (storage : Nat) :
    Keeps server.frames.next server
      (server.sendData worker session storage).1 := by
  have allocated := Keeps.allocateFrame matched
  have running : server.allocateFrame.Running worker server.frames.next :=
    .new started
  unfold Server.sendData
  dsimp only
  split
  · exact allocated.trans (.fail allocated.matched)
  · split
    · refine allocated.trans (running.queue allocated.matched ?_ rfl .send)
      exact .send rfl (by rw [suspendAt_self, running.thread])
    · exact allocated

theorem Keeps.onRecvData (matched : RingsMatch server)
    (started : server.Started worker) (session : SessionPtr)
    (data : List UInt8) :
    Keeps server.frames.next server
      (server.onRecvData worker session data) := by
  let touched := (server.setManager
    (server.manager.modifySession session fun contents =>
      contents.updateHeartbeat server.clock)).setVectors
    (server.vectors.put server.vectors.next data)
  have copied : Keeps server.frames.next server touched :=
    .congr matched rfl rfl
  have called : Keeps server.frames.next touched _ :=
    .sendData copied.matched started session server.vectors.next
  have spawned := Keeps.spawn called.matched (called.started started)
    (touched.sendData worker session server.vectors.next).2
  exact copied.trans (called.trans
    ((spawned.mono called.above.next).trans
      (.congr spawned.matched rfl rfl)))

theorem Keeps.awaitRecv (matched : RingsMatch server)
    (running : server.Running worker frame) (session : SessionPtr)
    (sessionId : SessionId) (socket : File) :
    Keeps frame server
      (server.awaitRecv worker frame session sessionId socket) := by
  unfold Server.awaitRecv
  refine running.queue matched ?_ rfl .recv
  exact .recv rfl (by rw [suspendAt_self, running.thread])

theorem Keeps.leaveHandleSession (matched : RingsMatch server)
    (running : server.Running worker frame) (session : SessionPtr)
    (sessionId : SessionId) :
    Keeps frame server
      (server.leaveHandleSession frame session sessionId) :=
  (running.endFrame matched none).trans
    (.congr (running.endFrame matched none).matched rfl rfl)

theorem Keeps.handleSessionLoop (matched : RingsMatch server)
    (running : server.Running worker frame) (session : SessionPtr)
    (sessionId : SessionId) :
    Keeps frame server
      (server.handleSessionLoop worker frame session sessionId) := by
  unfold Server.handleSessionLoop
  split
  · exact .fail matched
  · split
    · exact .awaitRecv matched running session sessionId _
    · exact .leaveHandleSession matched running session sessionId

theorem Keeps.setBuffers (matched : RingsMatch server)
    (started : server.Started worker) (buffers : ProvidedBuffers) :
    Keeps bound server (server.setBuffers worker buffers) where
  matched := matched.setWorker (matched.kept worker)
    (fun _ member => member) rfl started
  above := by
    have same : ∀ other,
        ((server.setBuffers worker buffers).workers other).phase =
          (server.workers other).phase ∧
        ((server.setBuffers worker buffers).workers other).acceptor =
          (server.workers other).acceptor ∧
        ((server.setBuffers worker buffers).workers other).ioUring =
          (server.workers other).ioUring ∧
        ((server.setBuffers worker buffers).workers other).dispatched =
          (server.workers other).dispatched :=
      setWorker_forall worker _
        (fun other contents =>
          contents.phase = (server.workers other).phase ∧
            contents.acceptor = (server.workers other).acceptor ∧
            contents.ioUring = (server.workers other).ioUring ∧
            contents.dispatched = (server.workers other).dispatched)
        ⟨rfl, rfl, rfl, rfl⟩ fun _ => ⟨rfl, rfl, rfl, rfl⟩
    refine ⟨fun _ _ => rfl, Nat.le_refl _, fun other => (same other).1,
      fun other => (same other).2.1, ?_, ?_, ?_⟩
    · intro other address member
      rw [outstanding, (same other).2.2.1] at member
      exact Or.inl member
    · intro other address member
      rw [outstanding, (same other).2.2.1]
      exact member
    · intro other
      rw [(same other).2.2.1]
      exact ⟨rfl, (same other).2.2.2⟩

theorem Keeps.handleBuffer (matched : RingsMatch server)
    (running : server.Running worker frame) (session : SessionPtr)
    (sessionId : SessionId) (bufferId bufferSize : Nat) :
    Keeps frame server (server.handleBuffer worker frame session sessionId
      bufferId bufferSize) := by
  unfold Server.handleBuffer
  dsimp only
  generalize (server.workers worker).buffers.borrowBuf bufferId = borrowed
  have marked : Keeps server.frames.next server
      (server.setBuffers worker borrowed.1) :=
    .setBuffers matched running.started _
  cases recvData borrowed.2 bufferSize with
  | none =>
      have still := running.persists marked.above running.allocated
      exact (marked.mono (Nat.le_of_lt running.allocated)).trans
        (.handleSessionLoop marked.matched still session sessionId)
  | some data =>
      let answered :=
        (server.setBuffers worker borrowed.1).onRecvData worker session data
      have handled : Keeps server.frames.next server answered := marked.trans
        ((Keeps.onRecvData marked.matched (marked.started running.started)
          session data).mono marked.above.next)
      have returned : Keeps server.frames.next server
          (answered.setBuffers worker
            ((answered.workers worker).buffers.returnBuf bufferId)) :=
        handled.trans (.setBuffers handled.matched
          (handled.started running.started) _)
      have still := running.persists returned.above running.allocated
      exact (returned.mono (Nat.le_of_lt running.allocated)).trans
        (.handleSessionLoop returned.matched still session sessionId)

theorem Keeps.resumeHandleSession (matched : RingsMatch server)
    (running : server.Running worker frame) (session : SessionPtr)
    (sessionId : SessionId) (awaited : RecvAwaiter) :
    Keeps frame server (server.resumeHandleSession worker frame session
      sessionId awaited) := by
  unfold Server.resumeHandleSession
  split
  · exact .fail matched
  · split
    · exact .leaveHandleSession matched running session sessionId
    · exact .handleBuffer matched running session sessionId _ _

theorem Keeps.handleSession (matched : RingsMatch server)
    (started : server.Started worker) (session : SessionPtr) :
    Keeps server.frames.next server
      (server.handleSession worker session).1 := by
  have allocated := Keeps.allocateFrame matched
  have running : server.allocateFrame.Running worker server.frames.next :=
    .new started
  unfold Server.handleSession
  dsimp only
  split
  · exact (allocated.setManager _).trans
      (.fail (allocated.setManager _).matched)
  · apply ((allocated.setManager _).setManager _).trans
    refine .handleSessionLoop ?_ ?_ session _
    · exact ((allocated.setManager _).setManager _).matched
    · exact running.congr rfl rfl

theorem Keeps.handleClientSession (matched : RingsMatch server)
    (started : server.Started worker) (client : Option File)
    (generated : SessionId) :
    Keeps server.frames.next server
      (server.handleClientSession worker client generated).1 := by
  have allocated := Keeps.allocateFrame matched
  have running : server.allocateFrame.Running worker server.frames.next :=
    .new started
  cases client with
  | none => exact allocated.trans (running.endFrame allocated.matched none)
  | some socket =>
      unfold Server.handleClientSession
      dsimp only
      split
      · apply (allocated.setManager _).trans
        refine @Running.endFrame _ worker _ ?_ ?_ none
        · exact running.congr rfl rfl
        · exact (allocated.setManager _).matched
      next session found =>
        let added := server.allocateFrame.manager.addSession (some socket)
          generated server.allocateFrame.clock
        have shared := (allocated.setManager added).setManager
          (added.share session (.frame server.frames.next))
        have called := Keeps.handleSession shared.matched
          (shared.started started) session
        refine shared.trans ((called.mono (Nat.le_succ _)).trans
          (Running.awaitTask ?_ called.matched _ _))
        refine Running.persists ?_ called.above (Nat.lt_succ_self _)
        exact running.congr rfl rfl

end CoUring
