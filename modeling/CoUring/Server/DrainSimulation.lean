import CoUring.Server.Drain
import CoUring.Server.Connections

namespace CoUring

open Foundation Server SessionManager

variable {server before after last : Server} {image : DrainServer}
  {label : Label} {worker : WorkerId} {generated : SessionId} {cqe : Cqe}
  {rest : List Cqe} {action : DrainAction} {frame : FrameId}
  {session : SessionPtr} {sessionId : SessionId}
  {history : List (Server × Label)}

/-! The server as a drain. -/

/-- What a completion means to the client whose session it reaches. -/
def Server.cqeAction (server : Server) (worker : WorkerId)
    (cqe : Cqe) : Option DrainAction :=
  match cqe.userData with
  | some (.acceptGuard _) =>
      if 0 ≤ cqe.res then
        some (.accept server.manager.objects.next worker cqe.res.toNat)
      else none
  | some (.recvAwaiter frame .awaited) =>
      match server.frames.cell frame with
      | some ⟨_, .handleSession session _ _⟩ =>
          if 0 < cqe.res then some (.drain session cqe.res.toNat)
          else some (.finish session)
      | _ => none
  | _ => none

def Server.drainAction (server : Server) : Label → Option DrainAction
  | .dispatch worker _ =>
      (server.workers worker).ioUring.cq.head?.bind (server.cqeAction worker)
  | _ => none

/-- Connections are sessions, and receive as long as `HandleSession` of the
session is suspended on the worker that accepted it. -/
structure Drains (server : Server) (image : DrainServer) : Prop where
  made : image.connections.length = server.manager.objects.next
  client : ∀ session contents,
    image.connections[session]? = some contents →
    server.ClientFd session contents.rawFd
  handled : ∀ frame thread session sessionId awaiter,
    server.frames.cell frame =
      some ⟨thread, .handleSession session sessionId awaiter⟩ →
    ∃ contents, image.connections[session]? = some contents ∧
      contents.worker = thread ∧ contents.receiving = true
  receiving : ∀ session contents,
    image.connections[session]? = some contents →
    contents.receiving = true →
    ∃ frame sessionId awaiter, server.frames.cell frame =
      some ⟨contents.worker, .handleSession session sessionId awaiter⟩

namespace Drains

theorem unchanged (drains : Drains before image)
    (next : after.manager.objects.next = before.manager.objects.next)
    (clients : ∀ session rawFd, before.ClientFd session rawFd →
      after.ClientFd session rawFd)
    (handlers : ∀ frame thread session sessionId awaiter,
      after.frames.cell frame =
          some ⟨thread, .handleSession session sessionId awaiter⟩ ↔
        before.frames.cell frame =
          some ⟨thread, .handleSession session sessionId awaiter⟩) :
    Drains after image where
  made := drains.made.trans next.symm
  client := fun session contents found =>
    clients _ _ (drains.client session contents found)
  handled := fun frame thread session sessionId awaiter stored =>
    drains.handled _ _ _ _ _ ((handlers ..).mp stored)
  receiving := fun session contents found receives => by
    obtain ⟨frame, sessionId, awaiter, stored⟩ :=
      drains.receiving session contents found receives
    exact ⟨frame, sessionId, awaiter, (handlers ..).mpr stored⟩

theorem receives (drains : Drains server image) {awaiter : RecvAwaiter}
    (suspended : server.frames.cell frame =
      some ⟨worker, .handleSession session sessionId awaiter⟩) :
    image.receives session = true := by
  obtain ⟨contents, found, -, receiving⟩ := drains.handled _ _ _ _ _ suspended
  exact DrainServer.receives_iff.mpr ⟨contents, found, receiving⟩

theorem accepted (drains : Drains before image)
    (sessions : SessionsKept before) {rawFd : RawFd}
    (clients : ∀ session rawFd, before.ClientFd session rawFd →
      after.ClientFd session rawFd)
    (cells : after.frames.cell =
      before.connectedCells worker (.adopt rawFd) generated)
    (manager : after.manager = before.manager.connectSession (.adopt rawFd)
      generated before.clock before.frames.next (before.frames.next + 1)) :
    Drains after ⟨image.connections ++ [⟨worker, rawFd, true⟩]⟩ := by
  have new : (image.connections ++ [⟨worker, rawFd, true⟩])[
      before.manager.objects.next]? = some ⟨worker, rawFd, true⟩ := by
    rw [← drains.made, List.getElem?_concat_length]
  have old : ∀ (session : SessionPtr) contents,
      (image.connections ++ [⟨worker, rawFd, true⟩])[session]? =
          some contents →
      session = before.manager.objects.next ∧
          contents = ⟨worker, rawFd, true⟩ ∨
        image.connections[session]? = some contents := by
    intro session contents found
    by_cases isNew : session = before.manager.objects.next
    · subst isNew
      exact .inl ⟨rfl, Option.some.inj (found.symm.trans new)⟩
    · rw [← drains.made] at isNew
      rw [DrainServer.accepted_other _ isNew] at found
      exact .inr found
  have kept : ∀ (session : SessionPtr) contents,
      image.connections[session]? = some contents →
      (image.connections ++ [⟨worker, rawFd, true⟩])[session]? =
        some contents := by
    intro session contents found
    obtain ⟨below, -⟩ := List.getElem?_eq_some_iff.mp found
    exact (List.getElem?_append_left below).trans found
  refine ⟨?_, fun session contents found => ?_, ?_, ?_⟩
  · rw [manager, connectSession_next sessions.made, ← drains.made]
    exact List.length_append
  · rcases old session contents found with ⟨rfl, rfl⟩ | earlier
    · exact ⟨_, (sessions.joined manager).1, rfl⟩
    · exact clients _ _ (drains.client session contents earlier)
  · intro frame thread session sessionId awaiter stored
    rw [cells] at stored
    rcases connectedCells_cases _ stored with
      ⟨-, other⟩ | ⟨-, same⟩ | ⟨-, other⟩ | earlier
    · cases other
    · cases same
      exact ⟨_, new, rfl, rfl⟩
    · cases other
    · obtain ⟨contents, found, rest⟩ := drains.handled _ _ _ _ _ earlier
      exact ⟨contents, kept session contents found, rest⟩
  · intro session contents found receives
    rw [cells]
    rcases old session contents found with ⟨rfl, rfl⟩ | earlier
    · exact ⟨_, _, _, connectedCells_handler _⟩
    · obtain ⟨frame, sessionId, awaiter, stored⟩ :=
        drains.receiving session contents earlier receives
      exact ⟨frame, sessionId, awaiter, connectedCells_old _ stored⟩

theorem received (drains : Drains before image)
    (next : after.manager.objects.next = before.manager.objects.next)
    (clients : ∀ session rawFd, before.ClientFd session rawFd →
      after.ClientFd session rawFd)
    {awaiter awaiter' : RecvAwaiter}
    (suspended : before.frames.cell frame =
      some ⟨worker, .handleSession session sessionId awaiter⟩)
    (cells : after.frames.cell = Function.update before.frames.cell frame
      (some ⟨worker, .handleSession session sessionId awaiter'⟩)) :
    Drains after image := by
  refine ⟨drains.made.trans next.symm,
    fun session contents found => clients _ _ (drains.client _ _ found), ?_, ?_⟩
  · intro other thread session' sessionId' awaiter stored
    rw [cells] at stored
    by_cases same : other = frame
    · subst same
      rw [Function.update_self] at stored
      cases stored
      exact drains.handled _ _ _ _ _ suspended
    · rw [Function.update_of_ne same] at stored
      exact drains.handled _ _ _ _ _ stored
  · intro session' contents found receives
    obtain ⟨other, sessionId', awaiter, stored⟩ :=
      drains.receiving session' contents found receives
    rw [cells]
    by_cases same : other = frame
    · subst same
      cases stored.symm.trans suspended
      exact ⟨other, _, _, Function.update_self ..⟩
    · exact ⟨other, _, _, (Function.update_of_ne same ..).trans stored⟩

theorem ended (drains : Drains before image)
    (sessions : SessionsKept before)
    (next : after.manager.objects.next = before.manager.objects.next)
    (clients : ∀ session rawFd, before.ClientFd session rawFd →
      after.ClientFd session rawFd) {awaiter : RecvAwaiter}
    (suspended : before.frames.cell frame =
      some ⟨worker, .handleSession session sessionId awaiter⟩)
    (cells : after.frames.cell =
      Function.update before.frames.cell frame none) :
    Drains after (image.finished session) := by
  obtain ⟨ended, found, -, -⟩ := drains.handled _ _ _ _ _ suspended
  have finished := DrainServer.finished_self found
  refine ⟨?_, fun session' contents found' => ?_, ?_, ?_⟩
  · rw [DrainServer.finished, List.length_modify, next]
    exact drains.made
  · by_cases same : session = session'
    · subst same
      cases found'.symm.trans finished
      exact clients _ _ (drains.client session ended found)
    · rw [DrainServer.finished_other same] at found'
      exact clients _ _ (drains.client session' contents found')
  · intro other thread session' sessionId' awaiter' stored
    rw [cells] at stored
    by_cases same : other = frame
    · subst same
      rw [Function.update_self] at stored
      cases stored
    · rw [Function.update_of_ne same] at stored
      have apart : session ≠ session' := by
        intro sameSession
        subst sameSession
        exact same (sessions.single _ _ _ _ _ _ _ _ _ stored suspended)
      rw [DrainServer.finished_other apart]
      exact drains.handled _ _ _ _ _ stored
  · intro session' contents found' receives
    by_cases same : session = session'
    · subst same
      cases found'.symm.trans finished
      cases receives
    · rw [DrainServer.finished_other same] at found'
      obtain ⟨other, sessionId', awaiter', stored⟩ :=
        drains.receiving session' contents found' receives
      have apart : other ≠ frame := by
        intro sameFrame
        subst sameFrame
        cases stored.symm.trans suspended
        exact same rfl
      rw [cells]
      exact ⟨other, _, _, (Function.update_of_ne apart ..).trans stored⟩

end Drains

/-! Each step of the server, against what its clients see of it. -/

theorem Server.drainAction_dispatch
    (next : (server.workers worker).ioUring.cq = cqe :: rest) :
    server.drainAction (.dispatch worker generated) =
      server.cqeAction worker cqe := by
  rw [drainAction, next]
  rfl

theorem Server.cqeAction_handled {awaiter : RecvAwaiter}
    (carries : cqe.userData = some (.recvAwaiter frame .awaited))
    (suspended : server.frames.cell frame =
      some ⟨worker, .handleSession session sessionId awaiter⟩) :
    server.cqeAction worker cqe =
      if 0 < cqe.res then some (.drain session cqe.res.toNat)
      else some (.finish session) := by
  rw [cqeAction, carries]
  dsimp only
  rw [suspended]

theorem Server.cqeAction_accepted
    (carries : cqe.userData = some (.acceptGuard worker)) :
    server.cqeAction worker cqe =
      if 0 ≤ cqe.res then
        some (.accept server.manager.objects.next worker cqe.res.toNat)
      else none := by
  rw [cqeAction, carries]

theorem Drains.dispatched (drains : Drains before image)
    (sessions : SessionsKept before)
    (clients : ∀ session rawFd, before.ClientFd session rawFd →
      after.ClientFd session rawFd)
    (outcome : DispatchOutcome before worker cqe rest generated after) :
    (before.cqeAction worker cqe = none → Drains after image) ∧
      ∀ action, before.cqeAction worker cqe = some action →
        ∃ image', image.step action = some image' ∧ Drains after image' := by
  cases outcome with
  | refused carries failed ring buffers cells manager =>
      rw [cqeAction_accepted carries, if_neg (not_le.mpr failed)]
      refine ⟨fun _ => drains.unchanged (by rw [manager]) clients ?_, nofun⟩
      intro frame thread session sessionId awaiter
      rw [cells]
  | accepted carries success ring buffers cells manager =>
      rw [cqeAction_accepted carries, if_pos success]
      refine ⟨nofun, ?_⟩
      rintro _ ⟨⟩
      exact ⟨_, if_pos drains.made.symm,
        drains.accepted sessions clients cells manager⟩
  | received rawFd carries suspended received ring buffers cells manager =>
      rw [cqeAction_handled carries suspended, if_pos received]
      refine ⟨nofun, ?_⟩
      rintro _ ⟨⟩
      have positive : 0 < cqe.res.toNat := by omega
      exact ⟨image, if_pos ⟨drains.receives suspended, positive⟩,
        drains.received (by rw [manager]) clients suspended cells⟩
  | ended carries suspended ended ring buffers cells manager =>
      rw [cqeAction_handled carries suspended, if_neg (not_lt.mpr ended)]
      refine ⟨nofun, ?_⟩
      rintro _ ⟨⟩
      exact ⟨_, if_pos (drains.receives suspended),
        drains.ended sessions (by rw [manager, left_next]) clients suspended
          cells⟩

theorem Drains.elsewhere (drains : Drains before image)
    (clients : ∀ session rawFd, before.ClientFd session rawFd →
      after.ClientFd session rawFd)
    (stepped : Stepped before label after)
    (other : ∀ worker generated, label ≠ .dispatch worker generated) :
    Drains after image := by
  cases stepped with
  | start unstarted =>
      refine drains.unchanged (by rw [startWorker_manager]) clients ?_
      exact fun _ _ _ _ _ => ⟨startWorker_handler, startWorker_old⟩
  | dispatch dispatching next => exact absurd rfl (other _ _)
  | cleanup swept =>
      exact drains.unchanged (cleanupExpiredSessions_next _ _) clients
        fun _ _ _ _ _ => Iff.rfl
  | submit | submitFails | wake | endBatch | complete | tick =>
      exact drains.unchanged rfl clients fun _ _ _ _ _ => Iff.rfl

theorem Drains.step (drains : Drains before image)
    (reachable : serverSystem.Reachable before)
    (step : before.step label = some after) :
    (before.drainAction label = none → Drains after image) ∧
      ∀ action, before.drainAction label = some action →
        ∃ image', image.step action = some image' ∧ Drains after image' := by
  have sessions := sessionsKept_of_reachable reachable
  have clients : ∀ session rawFd, before.ClientFd session rawFd →
      after.ClientFd session rawFd := fun _ _ =>
    (SessionStep.of_step reachable step).clientFd sessions
  have stepped := (step_cases step).2
  cases label with
  | dispatch worker generated =>
      cases stepped with
      | dispatch dispatching next =>
          rw [drainAction_dispatch next]
          exact drains.dispatched sessions clients
            (dispatched_of_reachable reachable dispatching next _).outcome
  | _ => exact ⟨fun _ => drains.elsewhere clients stepped nofun, nofun⟩

theorem drainSimulation :
    Simulation serverSystem drainSystem Server.drainAction Drains where
  initial := fun server initial => by
    cases initial
    exact ⟨{}, rfl, rfl, nofun, nofun, nofun⟩
  hidden := fun server label next image reachable drains step none =>
    (drains.step reachable step).1 none
  visible := fun server label next image action reachable drains step seen =>
    (drains.step reachable step).2 action seen

/-! The descriptors stay open. -/

theorem SessionStep.clientsOwned {clients : List (Option File)}
    (stepped : SessionStep before label after)
    (owned : ClientsOwned before.manager clients) :
    ∃ clients', ClientsOwned after.manager clients' := by
  cases stepped with
  | unchanged none sweepless manager handles =>
      rw [manager]
      exact ⟨clients, owned⟩
  | connected dispatches connection manager cells =>
      rw [manager]
      exact ⟨_, (((owned.addSession _ _).share).share).modifySession
        (·.onConnected before.clock) fun _ => rfl⟩
  | ended none sweepless handled manager handles =>
      rw [manager]
      exact ⟨clients, ((owned.modifySession GameSession.onDisconnected
        fun _ => rfl).removeSession).release⟩
  | swept cleanup visits counted manager frames =>
      rw [manager]
      exact ⟨clients, owned.sweep _ _⟩

theorem clientsOwned_of_reachable (reachable : serverSystem.Reachable server) :
    ∃ clients, ClientsOwned server.manager clients := by
  refine TransitionSystem.Invariant.of_reachable
    (fun server => ∃ clients, ClientsOwned server.manager clients) ?_ ?_ _
    reachable
  · intro server start
    cases start
    exact ⟨[], .empty⟩
  · intro before label after reached kept step
    obtain ⟨clients, owned⟩ := kept
    exact (SessionStep.of_step reached step).clientsOwned owned

/-- `HandleClientSession` is never resumed, so the session it shares is never
destroyed. -/
theorem closed_of_reachable (reachable : serverSystem.Reachable server) :
    server.manager.closed = [] := by
  obtain ⟨clients, owned⟩ := clientsOwned_of_reachable reachable
  have sessions := sessionsKept_of_reachable reachable
  apply List.eq_nil_iff_forall_not_mem.mpr
  intro entry member
  obtain ⟨_, _, _, _, shared, -, stored, -⟩ :=
    sessions.held entry.1 (owned.known entry member)
  have none := (owned.held entry.1 shared stored).2
  rw [closedBy, List.filter_eq_nil_iff] at none
  exact none entry member (decide_eq_true rfl)

/-! What its clients get. -/

/-- What clients see of any run of the server, they see of a run of the drain:
connections are accepted, emptied and given up, and no other thing happens. -/
theorem server_drains (run : serverSystem.Execution {} history last) :
    ∃ history' image, drainSystem.Execution {} history' image ∧
      TransitionSystem.trace history' =
        TransitionSystem.observed Server.drainAction history ∧
      Drains last image := by
  obtain ⟨first, history', image, rfl, run', same, drains⟩ :=
    drainSimulation.run rfl run
  exact ⟨history', image, run', same, drains⟩

/-- The connections of a run: each has its session, which lives as a drain
does, and its descriptor is never closed. -/
structure ConnectionsLive (history : List (Server × Label))
    (last : Server) (image : DrainServer) : Prop where
  made : image.connections.length = last.manager.objects.next
  client : ∀ session contents, image.connections[session]? = some contents →
    last.ClientFd session contents.rawFd
  lives : Lives (TransitionSystem.observed Server.drainAction history) image
  receiving : ∀ session contents,
    image.connections[session]? = some contents →
    (contents.receiving = true ↔
      ∃ frame sessionId awaiter, last.frames.cell frame =
        some ⟨contents.worker, .handleSession session sessionId awaiter⟩)
  unclosed : last.manager.closed = []

theorem connections_live (run : serverSystem.Execution {} history last) :
    ∃ image, ConnectionsLive history last image := by
  obtain ⟨first, history', image, rfl, run', same, drains⟩ :=
    drainSimulation.run rfl run
  refine ⟨image, drains.made, drains.client, ?_,
    fun session contents found => ⟨drains.receiving session contents found, ?_⟩,
    closed_of_reachable (run.reachable rfl)⟩
  · rw [← same]
    exact lives_of_run run'
  · intro handled
    obtain ⟨frame, sessionId, awaiter, stored⟩ := handled
    obtain ⟨contents', found', -, receiving⟩ :=
      drains.handled _ _ _ _ _ stored
    obtain rfl := Option.some.inj (found.symm.trans found')
    exact receiving

/-- A client sends two bytes and leaves, while another one stays. -/
def oneClientLeaves : List Label :=
  [.start 0 ⟨0, none, 0, some 3, 0⟩, .submit 0,
    .complete 0 0 (.accepted 7 true), .complete 0 0 (.accepted 8 true),
    .wake 0, .dispatch 0 "first", .dispatch 0 "second", .endBatch 0, .submit 0,
    .complete 0 1 (.received [1, 2]), .wake 0, .dispatch 0 "", .endBatch 0,
    .submit 0, .complete 0 2 (.ended false), .wake 0, .dispatch 0 ""]

theorem one_client_leaves_drains :
    ∃ last, TransitionSystem.runLabels Server.step {} oneClientLeaves =
        some last ∧
      TransitionSystem.observed Server.drainAction
          (TransitionSystem.traceLabels Server.step {} oneClientLeaves) =
        [.accept 0 0 7, .accept 1 0 8, .drain 0 2, .finish 0] ∧
      ∃ history' image, drainSystem.Execution {} history' image ∧
        TransitionSystem.trace history' =
          TransitionSystem.observed Server.drainAction
            (TransitionSystem.traceLabels Server.step {} oneClientLeaves) ∧
        Drains last image := by
  have run : (TransitionSystem.runLabels Server.step {}
      oneClientLeaves).isSome := by decide +kernel
  obtain ⟨last, run⟩ := Option.isSome_iff_exists.mp run
  exact ⟨last, run, by decide +kernel, server_drains (.runLabels run)⟩

theorem one_client_leaves_live :
    ∃ last image, TransitionSystem.runLabels Server.step {} oneClientLeaves =
        some last ∧
      ConnectionsLive
        (TransitionSystem.traceLabels Server.step {} oneClientLeaves) last
          image := by
  have run : (TransitionSystem.runLabels Server.step {}
      oneClientLeaves).isSome := by decide +kernel
  obtain ⟨last, run⟩ := Option.isSome_iff_exists.mp run
  obtain ⟨image, live⟩ := connections_live (.runLabels run)
  exact ⟨last, image, run, live⟩

end CoUring
