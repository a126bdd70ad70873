import CoUring.Session.SessionOwners
import CoUring.Server.RequestsMatch

namespace CoUring

open Foundation SessionManager

variable {server before middle after : Server} {worker : WorkerId}
  {frame : FrameId} {session : SessionPtr} {sessionId : SessionId}

namespace Server

/-! What a coroutine does when the objects it uses are there. -/

theorem spawn_eq {callee : FrameId} {contents : Frame}
    (stored : server.frames.cell callee = some contents) :
    server.spawn worker callee =
      server.allocateFrame.suspendAt worker server.frames.next
        (.spawnLambda callee) := by
  have stored' : server.allocateFrame.frames.cell callee = some contents :=
    stored
  simp only [spawn, awaitTask, stored']

theorem handleSessionLoop_eq {contents : GameSession} {socket : File}
    (found : server.session session = some contents)
    (client : contents.client = some socket) (valid : socket.isValid = true) :
    server.handleSessionLoop worker frame session sessionId =
      server.awaitRecv worker frame session sessionId socket := by
  simp [handleSessionLoop, found, client, valid]

theorem resumeHandleSession_ended {contents : GameSession} {socket : File}
    {awaited : RecvAwaiter}
    (found : server.session session = some contents)
    (client : contents.client = some socket)
    (ended : awaited.sqeData.cqeRes ≤ 0) :
    server.resumeHandleSession worker frame session sessionId awaited =
      server.leaveHandleSession frame session sessionId := by
  simp [resumeHandleSession, found, client, recvStep_leave ended]

theorem resumeHandleSession_received {contents : GameSession} {socket : File}
    {awaited : RecvAwaiter}
    (found : server.session session = some contents)
    (client : contents.client = some socket) (valid : socket.isValid = true)
    (received : 0 < awaited.sqeData.cqeRes) :
    server.resumeHandleSession worker frame session sessionId awaited =
      (server.setBuffers worker
        ((server.workers worker).buffers.borrowBuf 0).1).awaitRecv worker frame
          session sessionId socket := by
  simp only [resumeHandleSession, found, Option.bind_some, client,
    recvStep_handle received, handleBuffer, recvData_zero]
  exact handleSessionLoop_eq found client valid

theorem handleSession_eq {shared : SharedSession} {socket : File}
    (stored : server.manager.objects.cell session = some shared)
    (client : shared.session.client = some socket)
    (valid : socket.isValid = true) :
    server.handleSession worker session =
      ((server.allocateFrame.setManager
        ((server.manager.share session
          (.frame server.frames.next)).modifySession session fun contents =>
            contents.onConnected server.clock)).awaitRecv worker
              server.frames.next session shared.session.sessionId socket,
        server.frames.next) := by
  have shares : (server.allocateFrame.setManager
      (server.manager.share session (.frame server.frames.next))).session
        session = some shared.session := by
    simp [Server.session, setManager, share_cell, stored]
  simp only [handleSession]
  rw [show server.allocateFrame.manager = server.manager from rfl, shares]
  dsimp only
  have connected : ((server.allocateFrame.setManager
      (server.manager.share session (.frame server.frames.next))).setManager
        ((server.manager.share session
          (.frame server.frames.next)).modifySession session fun contents =>
            contents.onConnected server.clock)).session session =
      some (shared.session.onConnected server.clock) := by
    simp [Server.session, setManager, modifySession_cell, share_cell, stored]
  exact congrArg (·, _) (handleSessionLoop_eq connected client valid)

/-- The server after a connection was accepted: two suspended coroutines, the
outer one awaiting the inner one. -/
def connect (server : Server) (worker : WorkerId) (client : File)
    (generated : SessionId) : Server :=
  let frame := server.frames.next
  let session := server.manager.objects.next
  ((server.allocateFrame.allocateFrame.setManager
    (server.manager.connectSession client generated server.clock frame
      (frame + 1))).awaitRecv worker (frame + 1) session generated
        client).suspendAt worker frame
          (.handleClientSession session generated (frame + 1))

theorem handleClientSession_eq (made : server.manager.EntriesMade)
    {client : File} (valid : client.isValid = true)
    (generated : SessionId) :
    server.handleClientSession worker (some client) generated =
      (server.connect worker client generated, server.frames.next) := by
  have added := addSession_added made (some client) generated server.clock
  have found := added.found
  have created := added.created
  simp only [handleClientSession]
  rw [show server.allocateFrame.manager = server.manager from rfl,
    show server.allocateFrame.clock = server.clock from rfl]
  rw [show (server.allocateFrame.setManager (server.manager.addSession
      (some client) generated server.clock)).manager.getSession generated =
        some server.manager.objects.next from found]
  dsimp only
  have shares : ((server.allocateFrame.setManager (server.manager.addSession
      (some client) generated server.clock)).setManager
        ((server.manager.addSession (some client) generated
          server.clock).share server.manager.objects.next
            (.frame server.frames.next))).manager.objects.cell
              server.manager.objects.next =
      some ⟨⟨some client, generated, server.clock, false⟩,
        [.frame server.frames.next, .mapEntry generated]⟩ := by
    simp [setManager, share_cell, created]
  rw [setManager_manager, handleSession_eq shares rfl valid]
  have asleep : ∀ callee : Server, (callee.awaitRecv worker
      (server.frames.next + 1) server.manager.objects.next generated
        client).frames.cell (server.frames.next + 1) ≠ none := by
    intro callee
    rw [awaitRecv, suspendAt_self]
    exact Option.some_ne_none _
  obtain ⟨contents, stored⟩ := Option.ne_none_iff_exists'.mp (asleep
    (server.allocateFrame.allocateFrame.setManager
      (server.manager.connectSession client generated server.clock
        server.frames.next (server.frames.next + 1))))
  unfold awaitTask
  split
  next missing => cases missing.symm.trans stored
  next => rfl

end Server

open Server

def Server.Held (server : Server) (session : SessionPtr) : Prop :=
  ∃ frame thread sessionId callee shared,
    server.frames.cell frame =
      some ⟨thread, .handleClientSession session sessionId callee⟩ ∧
    server.manager.objects.cell session = some shared ∧
    .frame frame ∈ shared.owners ∧
    ∃ rawFd, shared.session.client = some (.adopt rawFd)

/-- The sessions and the coroutines that use them: every session ever made is
held by its `HandleClientSession`, has at most one `HandleSession`, and nothing
that is gone was ever accessed; `sends` says whether there are `SendData`
coroutines. -/
structure SessionsHeld (sends : Prop) (server : Server) : Prop where
  healthy : server.faulted = false
  made : server.manager.EntriesMade
  held : ∀ session, session < server.manager.objects.next →
    server.Held session
  handled : ∀ frame thread session sessionId awaiter,
    server.frames.cell frame =
      some ⟨thread, .handleSession session sessionId awaiter⟩ →
    session < server.manager.objects.next
  single : ∀ frame frame' thread thread' session sessionId sessionId' awaiter
    awaiter',
    server.frames.cell frame =
      some ⟨thread, .handleSession session sessionId awaiter⟩ →
    server.frames.cell frame' =
      some ⟨thread', .handleSession session sessionId' awaiter'⟩ →
    frame = frame'
  senders : ∀ frame thread session awaiter,
    server.frames.cell frame = some ⟨thread, .sendData session awaiter⟩ →
    sends

/-- The server by itself never sends: nothing calls `OnRecvData`. -/
abbrev SessionsKept (server : Server) : Prop := SessionsHeld False server

theorem SessionsKept.silent (sessions : SessionsKept server) (frame : FrameId)
    (thread : WorkerId) (session : SessionPtr) (awaiter : SendAwaiter) :
    server.frames.cell frame ≠ some ⟨thread, .sendData session awaiter⟩ :=
  sessions.senders frame thread session awaiter

/-- No coroutine of a session starts, and those of the kept frames that hold
one stay as they are. -/
structure Settled (kept : FrameId → Prop) (before after : Server) : Prop where
  manager : Lasting kept before.manager after.manager
  clients : ∀ frame thread session sessionId callee, kept frame →
    before.frames.cell frame =
      some ⟨thread, .handleClientSession session sessionId callee⟩ →
    after.frames.cell frame =
      some ⟨thread, .handleClientSession session sessionId callee⟩
  handlers : ∀ frame thread session sessionId awaiter,
    after.frames.cell frame =
      some ⟨thread, .handleSession session sessionId awaiter⟩ →
    ∃ thread' sessionId' awaiter', before.frames.cell frame =
      some ⟨thread', .handleSession session sessionId' awaiter'⟩
  senders : ∀ frame thread session awaiter,
    after.frames.cell frame = some ⟨thread, .sendData session awaiter⟩ →
    ∃ thread' awaiter', before.frames.cell frame =
      some ⟨thread', .sendData session awaiter'⟩
  healthy : after.faulted = before.faulted

variable {kept : FrameId → Prop} {sends : Prop}

namespace Settled

theorem trans (first : Settled kept before middle)
    (second : Settled kept middle after) : Settled kept before after where
  manager := first.manager.trans second.manager
  clients := fun frame thread session sessionId callee keeps stored =>
    second.clients _ _ _ _ _ keeps (first.clients _ _ _ _ _ keeps stored)
  handlers := fun frame thread session sessionId awaiter stored => by
    obtain ⟨thread', sessionId', awaiter', stored'⟩ :=
      second.handlers _ _ _ _ _ stored
    exact first.handlers _ _ _ _ _ stored'
  senders := fun frame thread session awaiter stored => by
    obtain ⟨thread', awaiter', stored'⟩ := second.senders _ _ _ _ stored
    exact first.senders _ _ _ _ stored'
  healthy := second.healthy.trans first.healthy

theorem of_frames (manager : Lasting kept before.manager after.manager)
    (cells : after.frames.cell = before.frames.cell)
    (healthy : after.faulted = before.faulted) :
    Settled kept before after where
  manager := manager
  clients := fun _ _ _ _ _ _ stored => by
    rw [cells]
    exact stored
  handlers := fun _ thread _ sessionId awaiter stored =>
    ⟨thread, sessionId, awaiter, by rwa [cells] at stored⟩
  senders := fun _ thread _ awaiter stored =>
    ⟨thread, awaiter, by rwa [cells] at stored⟩
  healthy := healthy

theorem setWorker (contents : Worker) :
    Settled kept server (server.setWorker worker contents) :=
  .of_frames (.refl _) rfl rfl

theorem allocateFrame : Settled kept server server.allocateFrame :=
  .of_frames (.refl _) rfl rfl

/-- A frame that holds no session goes to sleep, or one that handles a session
waits for the next receive. -/
theorem suspendAt (point : FramePoint)
    (client : ∀ thread session sessionId callee,
      server.frames.cell frame ≠
        some ⟨thread, .handleClientSession session sessionId callee⟩)
    (handler : ∀ session sessionId awaiter,
      point = .handleSession session sessionId awaiter →
      ∃ thread sessionId' awaiter', server.frames.cell frame =
        some ⟨thread, .handleSession session sessionId' awaiter'⟩)
    (sender : ∀ session awaiter, point = .sendData session awaiter →
      ∃ thread awaiter', server.frames.cell frame =
        some ⟨thread, .sendData session awaiter'⟩) :
    Settled kept server (server.suspendAt worker frame point) where
  manager := .refl _
  clients := fun other thread session sessionId callee _ stored => by
    have different : other ≠ frame := by
      rintro rfl
      exact client _ _ _ _ stored
    rw [suspendAt_other point different]
    exact stored
  handlers := fun other thread session sessionId awaiter stored => by
    rcases suspendAt_cases stored with ⟨rfl, same⟩ | ⟨-, old⟩
    · exact handler _ _ _ (congrArg Frame.point same).symm
    · exact ⟨thread, sessionId, awaiter, old⟩
  senders := fun other thread session awaiter stored => by
    rcases suspendAt_cases stored with ⟨rfl, same⟩ | ⟨-, old⟩
    · exact sender _ _ (congrArg Frame.point same).symm
    · exact ⟨thread, awaiter, old⟩
  healthy := rfl

theorem awaitRecv {thread : WorkerId} {sessionId' : SessionId}
    {awaiter : RecvAwaiter} (socket : File)
    (stored : server.frames.cell frame =
      some ⟨thread, .handleSession session sessionId' awaiter⟩) :
    Settled kept server
      (server.awaitRecv worker frame session sessionId socket) := by
  unfold Server.awaitRecv
  dsimp only
  refine (setWorker _).trans (suspendAt _ ?_ ?_ ?_)
  · intro thread' session' sessionId'' callee stored'
    exact FramePoint.noConfusion
      (congrArg Frame.point (Option.some.inj (stored.symm.trans stored')))
  · intro session' sessionId'' awaiter' same
    cases same
    exact ⟨thread, sessionId', awaiter, stored⟩
  · exact fun _ _ => FramePoint.noConfusion

theorem awaitAccept {socketServer : SocketServer}
    (listening : (server.workers worker).socketServer = some socketServer)
    (client : ∀ thread session sessionId callee,
      server.frames.cell frame ≠
        some ⟨thread, .handleClientSession session sessionId callee⟩) :
    Settled kept server (server.awaitAccept worker frame) := by
  simp only [Server.awaitAccept, listening]
  exact (setWorker _).trans (suspendAt _ client
    (fun _ _ _ => FramePoint.noConfusion) fun _ _ => FramePoint.noConfusion)

theorem spawn {callee : FrameId} {contents : Frame}
    (stored : server.frames.cell callee = some contents) :
    Settled kept server (server.spawn worker callee) := by
  rw [spawn_eq stored]
  refine allocateFrame.trans (suspendAt _ ?_
    (fun _ _ _ => FramePoint.noConfusion) fun _ _ => FramePoint.noConfusion)
  intro thread session sessionId callee' stored'
  cases (Heap.cell_next server.frames).symm.trans stored'

end Settled

theorem SessionsHeld.settled (sessions : SessionsHeld sends before)
    (settled : Settled kept before after)
    (keeps : ∀ frame thread session sessionId callee,
      before.frames.cell frame =
        some ⟨thread, .handleClientSession session sessionId callee⟩ →
      kept frame) : SessionsHeld sends after where
  healthy := settled.healthy.trans sessions.healthy
  made := settled.manager.entriesMade sessions.made
  held := fun session below => by
    rw [settled.manager.next] at below
    obtain ⟨frame, thread, sessionId, callee, shared, stored, object, owns,
      rawFd, client⟩ := sessions.held session below
    have isKept := keeps _ _ _ _ _ stored
    obtain ⟨shared', object', owns', client'⟩ :=
      settled.manager.owned session shared frame isKept object owns
    exact ⟨frame, thread, sessionId, callee, shared',
      settled.clients _ _ _ _ _ isKept stored, object', owns', rawFd,
      client'.trans client⟩
  handled := fun frame thread session sessionId awaiter stored => by
    obtain ⟨thread', sessionId', awaiter', stored'⟩ :=
      settled.handlers _ _ _ _ _ stored
    rw [settled.manager.next]
    exact sessions.handled _ _ _ _ _ stored'
  single := fun frame frame' thread thread' session sessionId sessionId'
      awaiter awaiter' stored stored' => by
    obtain ⟨_, _, _, earlier⟩ := settled.handlers _ _ _ _ _ stored
    obtain ⟨_, _, _, earlier'⟩ := settled.handlers _ _ _ _ _ stored'
    exact sessions.single _ _ _ _ _ _ _ _ _ earlier earlier'
  senders := fun frame thread session awaiter stored => by
    obtain ⟨_, _, earlier⟩ := settled.senders _ _ _ _ stored
    exact sessions.senders _ _ _ _ earlier

theorem SessionsHeld.persists (sessions : SessionsHeld sends before)
    (settled : Settled (fun _ => True) before after) :
    SessionsHeld sends after :=
  sessions.settled settled fun _ _ _ _ _ _ => trivial

/-- What a running coroutine finds of its session. -/
theorem SessionsHeld.found (sessions : SessionsHeld sends server)
    (below : session < server.manager.objects.next) :
    ∃ contents rawFd, server.session session = some contents ∧
      contents.client = some (.adopt rawFd) := by
  obtain ⟨frame, thread, sessionId, callee, shared, stored, object, owns,
    rawFd, client⟩ := sessions.held session below
  exact ⟨shared.session, rawFd, by simp [Server.session, object], client⟩

/-! A new connection. -/

theorem Server.connect_frame (client : File) (generated : SessionId) :
    (server.connect worker client generated).frames.cell server.frames.next =
      some ⟨worker, .handleClientSession server.manager.objects.next generated
        (server.frames.next + 1)⟩ := by
  rw [connect, suspendAt_self, threadOf_new]
  rw [awaitRecv, suspendAt_other _ (Nat.ne_of_lt (Nat.lt_succ_self _))]
  exact Heap.cell_next _

theorem Server.connect_handler (client : File) (generated : SessionId) :
    (server.connect worker client generated).frames.cell
      (server.frames.next + 1) =
      some ⟨worker, .handleSession server.manager.objects.next generated
        { client.recv with
          sqeData := { coroutine := some (server.frames.next + 1) } }⟩ := by
  rw [connect, suspendAt_other _ (Nat.succ_ne_self _), awaitRecv,
    suspendAt_self, threadOf_new]
  · rfl
  · exact server.frames.fresh _ (Nat.le_succ _)

theorem Server.connect_other (client : File) (generated : SessionId)
    {other : FrameId} (outer : other ≠ server.frames.next)
    (inner : other ≠ server.frames.next + 1) :
    (server.connect worker client generated).frames.cell other =
      server.frames.cell other := by
  rw [connect, suspendAt_other _ outer, awaitRecv, suspendAt_other _ inner]
  rfl

theorem Server.connect_old (client : File) (generated : SessionId)
    {contents : Frame} (stored : server.frames.cell frame = some contents) :
    (server.connect worker client generated).frames.cell frame =
      some contents := by
  have below := Heap.lt_next stored
  rw [connect_other client generated (Nat.ne_of_lt below)
    (Nat.ne_of_lt (Nat.lt_succ_of_lt below))]
  exact stored

theorem Server.connect_cases (client : File) (generated : SessionId)
    {contents : Frame}
    (stored : (server.connect worker client generated).frames.cell frame =
      some contents) :
    frame = server.frames.next ∧ contents = ⟨worker, .handleClientSession
        server.manager.objects.next generated (server.frames.next + 1)⟩ ∨
    frame = server.frames.next + 1 ∧ contents = ⟨worker, .handleSession
        server.manager.objects.next generated { client.recv with
          sqeData := { coroutine := some (server.frames.next + 1) } }⟩ ∨
    server.frames.cell frame = some contents := by
  by_cases outer : frame = server.frames.next
  · subst outer
    rw [connect_frame] at stored
    exact .inl ⟨rfl, (Option.some.inj stored).symm⟩
  · by_cases inner : frame = server.frames.next + 1
    · subst inner
      rw [connect_handler] at stored
      exact .inr (.inl ⟨rfl, (Option.some.inj stored).symm⟩)
    · rw [connect_other client generated outer inner] at stored
      exact .inr (.inr stored)

theorem SessionsHeld.connect (sessions : SessionsHeld sends server)
    (rawFd : RawFd) (generated : SessionId) :
    SessionsHeld sends
      (server.connect worker (.adopt rawFd) generated) := by
  have made := sessions.made
  have next : (server.connect worker (.adopt rawFd)
      generated).manager.objects.next = server.manager.objects.next + 1 :=
    connectSession_next made
  refine ⟨sessions.healthy, connectSession_entriesMade made, ?_, ?_, ?_, ?_⟩
  · intro session below
    rw [next, Nat.lt_succ_iff_lt_or_eq] at below
    rcases below with old | rfl
    · obtain ⟨frame, thread, sessionId, callee, shared, stored, object, owns,
        fd, client⟩ := sessions.held session old
      obtain ⟨owners, object', owns'⟩ := connectSession_owned made object owns
      exact ⟨frame, thread, sessionId, callee, _,
        connect_old _ generated stored, object', owns', fd, client⟩
    · exact ⟨server.frames.next, worker, generated, server.frames.next + 1, _,
        connect_frame _ generated, connectSession_created made, by simp,
        rawFd, rfl⟩
  · intro frame thread session sessionId awaiter stored
    rw [next]
    rcases connect_cases _ generated stored with
      ⟨-, same⟩ | ⟨-, same⟩ | old
    · cases same
    · cases same
      exact Nat.lt_succ_self _
    · exact Nat.lt_succ_of_lt (sessions.handled _ _ _ _ _ old)
  · intro frame frame' thread thread' session sessionId sessionId' awaiter
      awaiter' stored stored'
    rcases connect_cases _ generated stored with
      ⟨-, same⟩ | ⟨new, same⟩ | old
    · cases same
    · cases same
      rcases connect_cases _ generated stored' with
        ⟨-, same'⟩ | ⟨new', same'⟩ | old'
      · cases same'
      · exact new.trans new'.symm
      · exact absurd (sessions.handled _ _ _ _ _ old') (Nat.lt_irrefl _)
    · rcases connect_cases _ generated stored' with
        ⟨-, same'⟩ | ⟨new', same'⟩ | old'
      · cases same'
      · cases same'
        exact absurd (sessions.handled _ _ _ _ _ old) (Nat.lt_irrefl _)
      · exact sessions.single _ _ _ _ _ _ _ _ _ old old'
  · intro frame thread session awaiter stored
    rcases connect_cases _ generated stored with
      ⟨-, same⟩ | ⟨-, same⟩ | old
    · cases same
    · cases same
    · exact sessions.senders _ _ _ _ old

/-! The end of a session. -/

theorem Server.leaveHandleSession_frames :
    (server.leaveHandleSession frame session sessionId).frames =
      server.frames.free frame := rfl

theorem Server.leaveHandleSession_manager :
    (server.leaveHandleSession frame session sessionId).manager =
      ((server.manager.modifySession session
        GameSession.onDisconnected).removeSession sessionId).release session
          (.frame frame) := rfl

theorem Settled.leaveHandleSession :
    Settled (fun other => other ≠ frame) server
      (server.leaveHandleSession frame session sessionId) := by
  refine ⟨?_, ?_, ?_, ?_, rfl⟩
  · rw [leaveHandleSession_manager]
    refine (modifySession_lasting GameSession.onDisconnected
      fun _ => rfl).trans
      (removeSession_lasting.trans (release_lasting ?_))
    intro other different same
    exact different (Owner.frame.inj same).symm
  · intro other thread session sessionId callee different stored
    rw [leaveHandleSession_frames, Heap.cell_free_other _ different]
    exact stored
  · intro other thread session sessionId awaiter stored
    exact ⟨thread, sessionId, awaiter, (Heap.free_cases stored).2⟩
  · intro other thread session awaiter stored
    exact ⟨thread, awaiter, (Heap.free_cases stored).2⟩

theorem SessionsHeld.leave (sessions : SessionsHeld sends server)
    {thread : WorkerId} {sessionId' : SessionId} {awaiter : RecvAwaiter}
    (stored : server.frames.cell frame =
      some ⟨thread, .handleSession session sessionId' awaiter⟩) :
    SessionsHeld sends
      (server.leaveHandleSession frame session sessionId) := by
  refine sessions.settled .leaveHandleSession ?_
  rintro other thread' session' sessionId'' callee stored' rfl
  cases stored.symm.trans stored'

/-! One dispatch. -/

theorem Server.listening_of_acceptor
    (acceptor : (server.workers worker).acceptor = some frame) :
    ∃ socketServer,
      (server.workers worker).socketServer = some socketServer := by
  obtain ⟨acceptGuard, present, -⟩ := Option.bind_eq_some_iff.mp acceptor
  obtain ⟨socketServer, listening, -⟩ := Option.bind_eq_some_iff.mp present
  exact ⟨socketServer, listening⟩

theorem Server.storeResult_recv {awaiter : RecvAwaiter}
    (suspended : server.frames.cell frame =
      some ⟨worker, .handleSession session sessionId awaiter⟩)
    (res : Int) (flags : Nat) :
    server.storeResult (.recvAwaiter frame .awaited) res flags =
      server.suspendAt worker frame
        (.handleSession session sessionId (awaiter.store res flags)) := by
  simp only [storeResult, suspended, suspendAt, threadOf_stored suspended]

theorem Server.storeResult_send {awaiter : SendAwaiter}
    (suspended : server.frames.cell frame =
      some ⟨worker, .sendData session awaiter⟩) (res : Int) (flags : Nat) :
    server.storeResult (.sendAwaiter frame) res flags =
      server.suspendAt worker frame
        (.sendData session (awaiter.store res flags)) := by
  simp only [storeResult, suspended, suspendAt, threadOf_stored suspended]

theorem Settled.storeResult {address : SqeAddr}
    (awaits : server.Awaits worker address frame) (res : Int) (flags : Nat) :
    Settled kept server (server.storeResult address res flags) := by
  cases awaits with
  | accept names suspended =>
      obtain ⟨socketServer, listening⟩ := listening_of_acceptor names
      simp only [Server.storeResult, listening]
      exact .setWorker _
  | @recv _ session sessionId awaiter names suspended =>
      rw [storeResult_recv suspended]
      refine suspendAt _ ?_ ?_ fun _ _ => FramePoint.noConfusion
      · intro thread session' sessionId' callee stored
        cases suspended.symm.trans stored
      · intro session' sessionId' awaiter' same
        cases same
        exact ⟨_, _, _, suspended⟩
  | @send _ session awaiter names suspended =>
      rw [storeResult_send suspended]
      refine suspendAt _ ?_ (fun _ _ _ => FramePoint.noConfusion) ?_
      · intro thread session' sessionId callee stored
        cases suspended.symm.trans stored
      · intro session' awaiter' same
        cases same
        exact ⟨_, _, suspended⟩

theorem Settled.endSend {awaiter : SendAwaiter}
    (suspended : server.frames.cell frame =
      some ⟨worker, .sendData session awaiter⟩) :
    Settled kept server (server.endFrame frame none) where
  manager := .refl _
  clients := fun other thread session sessionId callee _ stored => by
    have different : other ≠ frame := by
      rintro rfl
      cases suspended.symm.trans stored
    exact (Heap.cell_free_other _ different).trans stored
  handlers := fun _ thread _ sessionId awaiter stored =>
    ⟨thread, sessionId, awaiter, (Heap.free_cases stored).2⟩
  senders := fun _ thread _ awaiter stored =>
    ⟨thread, awaiter, (Heap.free_cases stored).2⟩
  healthy := rfl

theorem MultishotAcceptGuard.awaitResume_some
    {acceptGuard : MultishotAcceptGuard} {client : File}
    (accepted : acceptGuard.awaitResume = some client) :
    0 ≤ acceptGuard.sqeData.cqeRes ∧
      client = .adopt acceptGuard.sqeData.cqeRes.toNat := by
  obtain ⟨success, same⟩ := Option.ite_none_left_eq_some.mp accepted
  exact ⟨not_lt.mp success, (Option.some.inj same).symm⟩

theorem Keeps.stored {bound : FrameId} (keeps : Keeps bound before after)
    (below : frame < bound) {contents : Frame}
    (stored : before.frames.cell frame = some contents) :
    after.frames.cell frame = some contents :=
  (keeps.above.cells frame below).trans stored

theorem Keeps.connect_spawn (matched : RingsMatch server)
    (started : server.Started worker) (made : server.manager.EntriesMade)
    (rawFd : RawFd) (generated : SessionId) :
    Keeps server.frames.next server
      ((server.connect worker (.adopt rawFd) generated).spawn worker
        server.frames.next) := by
  have called := Keeps.handleClientSession matched started
    (some (.adopt rawFd)) generated
  rw [handleClientSession_eq made rfl] at called
  exact called.trans ((Keeps.spawn called.matched (called.started started)
    _).mono called.above.next)

/-- Every session-keeping fact survives a dispatch, and nothing that is gone is
accessed. -/
theorem SessionsHeld.resume {address : SqeAddr}
    (sessions : SessionsHeld sends server) (matched : RingsMatch server)
    (started : server.Started worker)
    (awaits : server.Awaits worker address frame) (generated : SessionId) :
    SessionsHeld sends (server.resume worker frame generated) := by
  cases awaits with
  | accept names suspended =>
      obtain ⟨socketServer, listening⟩ := listening_of_acceptor names
      have holdsNone : ∀ {server : Server},
          server.frames.cell frame = some ⟨worker, .acceptClients⟩ →
          ∀ thread session sessionId callee, server.frames.cell frame ≠
            some ⟨thread, .handleClientSession session sessionId callee⟩ := by
        intro server suspended thread session sessionId callee stored
        cases suspended.symm.trans stored
      simp only [Server.resume, suspended, resumeAcceptClients, listening]
      split
      · exact sessions.persists
          (Settled.awaitAccept listening (holdsNone suspended))
      next client accepted =>
        obtain ⟨rawFd, rfl⟩ : ∃ rawFd, client = .adopt rawFd :=
          ⟨_, (MultishotAcceptGuard.awaitResume_some accepted).2⟩
        rw [handleClientSession_eq sessions.made rfl]
        have keeps := Keeps.connect_spawn matched started sessions.made rawFd
          generated
        obtain ⟨later, listening'⟩ := listening_of_acceptor
          ((keeps.above.acceptor worker).trans names)
        have spawned : SessionsHeld sends ((server.connect worker (.adopt rawFd)
            generated).spawn worker server.frames.next) :=
          (sessions.connect rawFd generated).persists
            (Settled.spawn (connect_frame _ generated))
        exact spawned.persists (Settled.awaitAccept listening'
          (holdsNone (keeps.stored (Heap.lt_next suspended) suspended)))
  | @recv _ session sessionId awaiter names suspended =>
      have below := sessions.handled _ _ _ _ _ suspended
      obtain ⟨contents, rawFd, found, client⟩ := sessions.found below
      simp only [Server.resume, suspended]
      by_cases received : 0 < awaiter.sqeData.cqeRes
      · rw [resumeHandleSession_received found client rfl received]
        exact sessions.persists
          ((Settled.setWorker _).trans (.awaitRecv _ suspended))
      · rw [resumeHandleSession_ended found client (not_lt.mp received)]
        exact sessions.leave suspended
  | send names suspended =>
      simp only [Server.resume, suspended]
      exact sessions.persists (Settled.endSend suspended)

theorem SessionsHeld.dispatch (sessions : SessionsHeld sends server)
    (matched : RingsMatch server) (started : server.Started worker)
    {cqe : Cqe} {rest : List Cqe}
    (next : (server.workers worker).ioUring.cq = cqe :: rest)
    (generated : SessionId) :
    SessionsHeld sends ((server.setWorker worker
      ((server.workers worker).seen cqe rest)).dispatchCqe worker cqe
        generated) := by
  obtain ⟨address, frame, delivery⟩ := matched.deliver started next
  rw [delivery.resumes]
  have taken : SessionsHeld sends (server.setWorker worker
      ((server.workers worker).seen cqe rest)) :=
    sessions.persists (.setWorker _)
  have stored : SessionsHeld sends (server.delivered worker cqe rest address) :=
    taken.persists (.storeResult delivery.taken cqe.res cqe.flags)
  exact stored.resume delivery.stored.matched delivery.started
    delivery.stored.awaits generated

theorem Server.acceptClients_eq {socketServer : SocketServer}
    (listening : (server.workers worker).socketServer = some socketServer) :
    server.acceptClients worker =
      (server.allocateFrame.awaitAccept worker server.frames.next,
        server.frames.next) := by
  have listening' : (server.allocateFrame.workers worker).socketServer =
      some socketServer := listening
  simp only [acceptClients, listening']

theorem Server.awaitAccept_self {socketServer : SocketServer}
    (listening : (server.workers worker).socketServer = some socketServer) :
    (server.awaitAccept worker frame).frames.cell frame =
      some ⟨server.threadOf worker frame, .acceptClients⟩ := by
  simp only [awaitAccept, listening]
  rw [suspendAt_self, setWorker_threadOf]

theorem SessionsHeld.startWorker (sessions : SessionsHeld sends server)
    (outcome : InitOutcome) :
    SessionsHeld sends (server.startWorker worker outcome) := by
  have sockets := initStages_socketServer outcome
    { server.workers worker with phase := .looping }
  unfold Server.startWorker
  dsimp only
  generalize initStages outcome
    { server.workers worker with phase := .looping } = initialized at *
  have initial : SessionsHeld sends (server.setWorker worker initialized.1) :=
    sessions.persists (.setWorker _)
  split
  next ready =>
    obtain ⟨-, rawFd, socket⟩ := sockets.resolve_left
      fun failed => by simp [failed.1] at ready
    have listening : ((server.setWorker worker
        initialized.1).workers worker).socketServer =
          some { file := .adopt rawFd } := by
      rw [setWorker_self]
      exact socket
    have called : ((server.setWorker worker
        initialized.1).allocateFrame.workers worker).socketServer =
          some { file := .adopt rawFd } := listening
    rw [acceptClients_eq listening]
    refine initial.persists (Settled.allocateFrame.trans
      ((Settled.awaitAccept called ?_).trans
        (Settled.spawn (awaitAccept_self called))))
    intro thread session sessionId callee stored
    cases (Heap.cell_next _).symm.trans stored
  next => exact initial

theorem SessionsHeld.step (sessions : SessionsHeld sends before)
    (matched : RingsMatch before) {label : Label}
    (stepped : Stepped before label after) : SessionsHeld sends after := by
  cases stepped with
  | start unstarted => exact sessions.startWorker _
  | dispatch dispatching next =>
      exact sessions.dispatch matched
        (started_of_phase dispatching Phase.noConfusion) next _
  | cleanup swept =>
      exact sessions.persists
        (.of_frames (cleanupExpiredSessions_lasting _ _) rfl rfl)
  | tick => exact sessions.persists (.of_frames (.refl _) rfl rfl)
  | submit looping => exact sessions.persists (.setWorker _)
  | submitFails looping => exact sessions.persists (.setWorker _)
  | wake waiting present => exact sessions.persists (.setWorker _)
  | endBatch dispatching empty => exact sessions.persists (.setWorker _)
  | complete completed => exact sessions.persists (.setWorker _)

theorem sessionsHeld_initial : SessionsHeld sends {} where
  healthy := rfl
  made := fun _ _ found => by cases found
  held := fun _ below => by cases below
  handled := fun _ _ _ _ _ stored => by cases stored
  single := fun _ _ _ _ _ _ _ _ _ stored => by cases stored
  senders := fun _ _ _ _ stored => by cases stored

theorem sessionsKept_of_reachable
    (reachable : serverSystem.Reachable server) : SessionsKept server := by
  refine TransitionSystem.Invariant.of_reachable SessionsKept ?_ ?_ _
    reachable
  · rintro _ rfl
    exact sessionsHeld_initial
  · intro before label after reached sessions step
    exact sessions.step (ringsMatch_of_reachable reached) (step_cases step).2

end CoUring
