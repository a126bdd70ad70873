import CoUring.Io.Bind
import CoUring.Server.Dispatch

namespace CoUring

open Foundation Server

variable {server : Server} {worker : WorkerId}

/-! Starting a worker. -/

structure InitOutcome.Succeeds (outcome : InitOutcome) : Prop where
  queueInit : 0 ≤ outcome.queueInit
  mapped : outcome.mmapErrno = none
  registered : 0 ≤ outcome.registered
  bound : outcome.bound ≠ none
  listened : outcome.listened = 0

theorem Server.initStages_succeeds (outcome : InitOutcome) (phase : Phase) :
    (initStages outcome { phase := phase }).2 = true ↔ outcome.Succeeds := by
  unfold initStages
  dsimp only
  constructor
  · intro ready
    split at ready
    · cases ready
    next queue =>
      split at ready
      · cases ready
      next registered =>
        split at ready
        · cases ready
        next rawFd bound =>
          split at ready
          · cases ready
          next listened =>
            obtain ⟨mapped, registers⟩ :=
              registerBufRing_eq_zero.mp (not_not.mp registered)
            exact ⟨not_lt.mp queue, mapped, registers, by simp [bound],
              not_not.mp listened⟩
  · intro succeeds
    obtain ⟨rawFd, bound⟩ := Option.ne_none_iff_exists'.mp succeeds.bound
    have registers : (BufferRing.registerBufRing {} outcome.mmapErrno
        outcome.registered).1 = 0 :=
      registerBufRing_eq_zero.mpr ⟨succeeds.mapped, succeeds.registered⟩
    rw [if_neg (not_lt.mpr succeeds.queueInit),
      if_neg (not_not.mpr registers), bound]
    simp [succeeds.listened]

theorem Server.startWorker_other {other : WorkerId} (outcome : InitOutcome)
    (different : other ≠ worker) :
    (server.startWorker worker outcome).workers other =
      server.workers other := by
  unfold startWorker
  dsimp only
  split
  · rw [spawn_workers]
    unfold acceptClients
    dsimp only
    split
    · exact setWorker_other _ different
    · unfold awaitAccept
      dsimp only
      split
      · exact setWorker_other _ different
      · rw [suspendAt_workers, setWorker_other _ different]
        exact setWorker_other _ different
  · exact setWorker_other _ different

/-- A worker after `init` and, if that went well, the first await of
`accept()`. -/
inductive WorkerStarted (outcome : InitOutcome) (worker : WorkerId)
    (contents : Worker) : Prop
  | failed (fails : ¬ outcome.Succeeds) (ring : contents.ioUring = {})
      (listening : contents.listening = none)
      (buffers : contents.buffers =
        (initStages outcome { phase := .looping }).1.buffers)
      (dispatched : contents.dispatched = [])
  | ready (succeeds : outcome.Succeeds) (file : File)
      (ring : contents.ioUring =
        { sq := [⟨.multishotAccept, file.getRawFd, .acceptGuard worker⟩] })
      (listening : contents.listening = some file)
      (buffers : contents.buffers =
        (initStages outcome { phase := .looping }).1.buffers)
      (dispatched : contents.dispatched = [])
      (adopted : outcome.bound.map File.adopt = some file)

theorem Server.startWorker_started (fresh : server.workers worker = {})
    (outcome : InitOutcome) :
    WorkerStarted outcome worker
      ((server.startWorker worker outcome).workers worker) := by
  have succeeds := initStages_succeeds outcome .looping
  obtain ⟨-, ring, dispatched⟩ :=
    initStages_same outcome { phase := .looping }
  have sockets := initStages_socketServer outcome { phase := .looping }
  unfold startWorker
  rw [fresh]
  dsimp only
  generalize same : initStages outcome { phase := .looping } = initialized
    at succeeds ring dispatched sockets ⊢
  cases ready : initialized.2 with
  | false =>
      rw [if_neg (by simp), setWorker_self]
      refine .failed (fun outcome => ?_) ring ?_ (by rw [same]) dispatched
      · rw [succeeds.mpr outcome] at ready
        cases ready
      · rcases sockets with ⟨-, socket⟩ | ⟨isReady, -⟩
        · rw [Worker.listening, socket]
          rfl
        · rw [isReady] at ready
          cases ready
  | true =>
      obtain ⟨-, rawFd, socket⟩ := sockets.resolve_left
        fun failed => by simp [failed.1] at ready
      have listening : ((server.setWorker worker
          initialized.1).workers worker).socketServer =
            some { file := .adopt rawFd } := by
        rw [setWorker_self, socket]
      have called : ((server.setWorker worker
          initialized.1).allocateFrame.workers worker).socketServer =
            some { file := .adopt rawFd } := listening
      have here : (server.setWorker worker
          initialized.1).allocateFrame.workers worker = initialized.1 := by
        rw [allocateFrame_workers, setWorker_self]
      rw [if_pos rfl, acceptClients_eq listening, spawn_workers]
      simp only [awaitAccept, called]
      rw [suspendAt_workers, setWorker_self, here, ring]
      refine .ready (succeeds.mp ready) (.adopt rawFd) rfl rfl (by rw [same])
        dispatched ?_
      subst same
      rw [initStages_bound ready socket, Option.map_some]

/-- A worker listens just when all of `init` goes well, on what `bind` made of
the first usable address. -/
theorem Server.startWorker_listens_iff (fresh : server.workers worker = {})
    (outcome : InitOutcome) {socketAddress : Option (List Candidate)}
    (bound : outcome.bound = (bind socketAddress).bound) (file : File) :
    ((server.startWorker worker outcome).workers worker).listening =
        some file ↔
      outcome.Succeeds ∧
        ∃ failed node later, socketAddress = some (failed ++ node :: later) ∧
          (∀ other ∈ failed, other.usable = false) ∧ node.usable ∧
          file = .adopt node.socket.toNat := by
  have started := startWorker_started fresh outcome
  generalize (server.startWorker worker outcome).workers worker = contents
    at started
  have adopts : outcome.bound.map File.adopt = some file ↔
      ∃ failed node later, socketAddress = some (failed ++ node :: later) ∧
        (∀ other ∈ failed, other.usable = false) ∧ node.usable ∧
        file = .adopt node.socket.toNat := by
    rw [bound, Option.map_eq_some_iff]
    constructor
    · intro found
      obtain ⟨rawFd, isBound, rfl⟩ := found
      obtain ⟨failed, node, later, same, fails, usable, rfl⟩ :=
        (bind_bound_iff socketAddress rawFd).mp isBound
      exact ⟨failed, node, later, same, fails, usable, rfl⟩
    · intro found
      obtain ⟨failed, node, later, same, fails, usable, rfl⟩ := found
      exact ⟨node.socket.toNat, (bind_bound_iff socketAddress _).mpr
        ⟨failed, node, later, same, fails, usable, rfl⟩, rfl⟩
  rw [← adopts]
  cases started with
  | failed fails ring listening =>
      rw [listening]
      exact iff_of_false nofun fun listens => fails listens.1
  | ready succeeds file ring listening buffers dispatched adopted =>
      rw [listening, adopted]
      exact (and_iff_right succeeds).symm

theorem Server.initStages_buffers (outcome : InitOutcome) (phase : Phase) :
    (initStages outcome { phase := phase }).1.buffers.kernel = {} ∧
      (∀ bufferId, (initStages outcome
        { phase := phase }).1.buffers.app.borrowedBufSet bufferId = false) ∧
      ((initStages outcome { phase := phase }).2 = true →
        ∃ registered, BufferRing.registerBufRing {} none registered =
          (0, (initStages outcome { phase := phase }).1.buffers.app)) := by
  have borrowed : ∀ bufferId, (BufferRing.registerBufRing {}
      outcome.mmapErrno outcome.registered).2.borrowedBufSet bufferId =
        false := by
    intro bufferId
    cases outcome.mmapErrno with
    | none => rfl
    | some errno => rfl
  unfold initStages
  dsimp only
  split
  · exact ⟨rfl, fun _ => rfl, nofun⟩
  · split
    · exact ⟨rfl, borrowed, nofun⟩
    next registers =>
      have zero := not_not.mp registers
      have mapped := (registerBufRing_eq_zero.mp zero).1
      split
      · exact ⟨rfl, borrowed, nofun⟩
      · split
        · exact ⟨rfl, borrowed, nofun⟩
        · refine ⟨rfl, borrowed, fun _ => ⟨outcome.registered, ?_⟩⟩
          rw [← mapped]
          exact Prod.ext zero rfl

/-! The coroutines it calls. -/

theorem Server.spawn_cells {callee frame : FrameId} {contents : Frame}
    (stored : (server.spawn worker callee).frames.cell frame =
      some contents) :
    server.frames.cell frame = some contents ∨
      contents.point = .spawnLambda callee := by
  unfold spawn awaitTask at stored
  split at stored
  · exact .inl stored
  · rcases suspendAt_cases stored with ⟨-, new⟩ | ⟨-, old⟩
    · exact .inr (congrArg Frame.point new)
    · exact .inl old

theorem Server.awaitAccept_cells {frame other : FrameId} {contents : Frame}
    (stored : (server.awaitAccept worker frame).frames.cell other =
      some contents) :
    server.frames.cell other = some contents ∨
      contents.point = .acceptClients := by
  unfold awaitAccept at stored
  dsimp only at stored
  split at stored
  · exact .inl stored
  · rcases suspendAt_cases stored with ⟨-, new⟩ | ⟨-, old⟩
    · exact .inr (congrArg Frame.point new)
    · exact .inl old

theorem Server.acceptClients_cells {frame : FrameId} {contents : Frame}
    (stored : (server.acceptClients worker).1.frames.cell frame =
      some contents) :
    server.frames.cell frame = some contents ∨
      contents.point = .acceptClients := by
  unfold acceptClients at stored
  dsimp only at stored
  split at stored
  · exact .inl (Heap.free_cases stored).2
  · exact @awaitAccept_cells server.allocateFrame _ _ _ _ stored

theorem Server.startWorker_handler {outcome : InitOutcome} {frame : FrameId}
    {thread : WorkerId} {session : SessionPtr} {sessionId : SessionId}
    {awaiter : RecvAwaiter}
    (stored : (server.startWorker worker outcome).frames.cell frame =
      some ⟨thread, .handleSession session sessionId awaiter⟩) :
    server.frames.cell frame =
      some ⟨thread, .handleSession session sessionId awaiter⟩ := by
  unfold startWorker at stored
  dsimp only at stored
  split at stored
  · rcases spawn_cells stored with called | impossible
    · exact (acceptClients_cells called).resolve_right FramePoint.noConfusion
    · cases impossible
  · exact stored

/-! The frames of other coroutines stay. -/

theorem Server.spawn_old {callee frame : FrameId} {contents : Frame}
    (stored : server.frames.cell frame = some contents) :
    (server.spawn worker callee).frames.cell frame = some contents := by
  unfold spawn awaitTask
  split
  · exact stored
  · rw [suspendAt_other _ (Heap.ne_next stored)]
    exact stored

theorem Server.acceptClients_old {frame : FrameId} {contents : Frame}
    (stored : server.frames.cell frame = some contents) :
    (server.acceptClients worker).1.frames.cell frame = some contents := by
  have old := Heap.ne_next stored
  unfold acceptClients awaitAccept
  dsimp only
  split
  · rw [endFrame_frames, Heap.cell_free_other _ old]
    exact stored
  · split
    · exact stored
    · rw [suspendAt_other _ old]
      exact stored

theorem Server.startWorker_old {outcome : InitOutcome} {frame : FrameId}
    {contents : Frame}
    (stored : server.frames.cell frame = some contents) :
    (server.startWorker worker outcome).frames.cell frame =
      some contents := by
  unfold startWorker
  dsimp only
  split
  · exact spawn_old (acceptClients_old stored)
  · exact stored

theorem Server.startWorker_manager (outcome : InitOutcome) :
    (server.startWorker worker outcome).manager = server.manager := by
  unfold startWorker spawn awaitTask acceptClients awaitAccept
  dsimp only
  repeat' split
  all_goals rfl

end CoUring
