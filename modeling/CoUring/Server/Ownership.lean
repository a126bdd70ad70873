import CoUring.Server.Start

namespace CoUring

open Foundation Server

variable {server before after : Server} {worker : WorkerId} {cqe : Cqe}
  {rest : List Cqe} {generated : SessionId} {session : SessionPtr}

def FramePoint.serves (point : FramePoint) (session : SessionPtr) : Bool :=
  match point with
  | .handleSession handled _ _ => handled = session
  | .sendData sender _ => sender = session
  | _ => false

/-- `HandleSession` has not ended, or a `SendData` is suspended. -/
def Server.live (server : Server) (session : SessionPtr) : Bool :=
  (List.range server.frames.next).any fun frame =>
    (server.frames.cell frame).any fun contents =>
      contents.point.serves session

/-- Nobody keeps the session, it is destroyed, and its descriptor was closed
once. -/
structure Server.Released (server : Server) (session : SessionPtr) :
    Prop where
  entries : ∀ sessionId,
    server.manager.sessions.lookup sessionId ≠ some session
  frames : ∀ frame contents, server.frames.cell frame = some contents →
    contents.point.sharedSession ≠ some session
  destroyed : server.manager.objects.cell session = none
  closed : (server.manager.closed.map Prod.fst).count session = 1

def Server.liveSessions (server : Server) : List SessionPtr :=
  (List.range server.manager.objects.next).filter server.live

def Server.openDescriptors (server : Server) : List RawFd :=
  (List.range server.manager.objects.next).filterMap fun session =>
    ((server.session session).bind GameSession.client).bind File.rawFd

structure Server.SessionsReleased (server : Server) : Prop where
  released : ∀ session < server.manager.objects.next,
    server.live session = false → server.Released session
  descriptors :
    server.openDescriptors.length ≤ server.liveSessions.length

theorem Server.live_iff : server.live session = true ↔
    ∃ frame contents, server.frames.cell frame = some contents ∧
      contents.point.serves session = true := by
  simp only [live, List.any_eq_true, List.mem_range, Option.any_eq_true]
  constructor
  · rintro ⟨frame, -, contents, stored, serves⟩
    exact ⟨frame, contents, stored, serves⟩
  · rintro ⟨frame, contents, stored, serves⟩
    exact ⟨frame, Heap.lt_next stored, contents, stored, serves⟩

/-- In a reachable state only `HandleSession` works for a session. -/
theorem SessionsKept.live_iff (sessions : SessionsKept server) :
    server.live session = true ↔
      ∃ frame thread sessionId awaiter, server.frames.cell frame =
        some ⟨thread, .handleSession session sessionId awaiter⟩ := by
  rw [Server.live_iff]
  constructor
  · rintro ⟨frame, ⟨thread, point⟩, stored, serves⟩
    cases point with
    | handleSession handled sessionId awaiter =>
        obtain rfl : handled = session := by
          simpa [FramePoint.serves] using serves
        exact ⟨frame, thread, sessionId, awaiter, stored⟩
    | sendData sender awaiter =>
        exact absurd stored (sessions.silent _ _ _ _)
    | acceptClients => cases serves
    | handleClientSession handled sessionId callee => cases serves
    | spawnLambda awaitable => cases serves
  · rintro ⟨frame, thread, sessionId, awaiter, stored⟩
    exact ⟨frame, _, stored, by simp [FramePoint.serves]⟩

/-- Every session ever made still has its `HandleSession`. -/
def Server.AllLive (server : Server) : Prop :=
  ∀ session < server.manager.objects.next, server.live session = true

theorem sessionsReleased_iff (sessions : SessionsKept server) :
    server.SessionsReleased ↔ server.AllLive := by
  constructor
  · intro released session below
    by_contra finished
    have gone := (released.released session below
      (by simpa using finished)).destroyed
    obtain ⟨frame, thread, sessionId, callee, shared, stored, object, -⟩ :=
      sessions.held session below
    cases object.symm.trans gone
  · intro allLive
    refine ⟨?_, ?_⟩
    · intro session below finished
      cases (allLive session below).symm.trans finished
    · have everyOne : server.liveSessions =
          List.range server.manager.objects.next := by
        refine List.filter_eq_self.mpr fun session member => ?_
        exact allLive session (List.mem_range.mp member)
      rw [everyOne]
      exact List.length_filterMap_le _ _

/-! One step. -/

def Cqe.EndsSession (cqe : Cqe) : Prop :=
  match cqe.userData with
  | some (.recvAwaiter _ _) => cqe.res ≤ 0
  | _ => False

def Server.NoSessionEnds (server : Server) : Label → Prop
  | .dispatch worker _ =>
      ∀ cqe ∈ (server.workers worker).ioUring.cq.head?, ¬ cqe.EndsSession
  | _ => True

theorem Server.AllLive.mono (allLive : before.AllLive)
    (sessions : SessionsKept before)
    (next : after.manager.objects.next = before.manager.objects.next)
    (handlers : ∀ frame thread session sessionId awaiter,
      before.frames.cell frame =
        some ⟨thread, .handleSession session sessionId awaiter⟩ →
      ∃ awaiter', after.frames.cell frame =
        some ⟨thread, .handleSession session sessionId awaiter'⟩) :
    after.AllLive := by
  intro session below
  rw [next] at below
  obtain ⟨frame, thread, sessionId, awaiter, stored⟩ :=
    sessions.live_iff.mp (allLive session below)
  obtain ⟨awaiter', stored'⟩ := handlers _ _ _ _ _ stored
  exact Server.live_iff.mpr ⟨frame, _, stored', by simp [FramePoint.serves]⟩

theorem allLive_dispatch (sessions : SessionsKept before)
    (later : SessionsKept after) (allLive : before.AllLive)
    (dispatched : Dispatched before worker cqe rest generated after) :
    after.AllLive ↔ ¬ cqe.EndsSession := by
  cases dispatched.outcome with
  | refused carries failed ring buffers cells manager =>
      refine iff_of_true (allLive.mono sessions (by rw [manager]) ?_) ?_
      · intro frame thread session sessionId awaiter stored
        exact ⟨awaiter, by rwa [cells]⟩
      · simp [Cqe.EndsSession, carries]
  | accepted carries success ring buffers cells manager =>
      refine iff_of_true ?_ (by simp [Cqe.EndsSession, carries])
      intro session below
      rw [manager, SessionManager.connectSession_next sessions.made,
        Nat.lt_succ_iff_lt_or_eq] at below
      rw [later.live_iff, cells]
      rcases below with old | rfl
      · obtain ⟨frame, thread, sessionId, awaiter, stored⟩ :=
          sessions.live_iff.mp (allLive session old)
        exact ⟨frame, thread, sessionId, awaiter,
          connectedCells_old _ stored⟩
      · exact ⟨_, _, _, _, connectedCells_handler _⟩
  | @received frame session sessionId awaiter rawFd carries suspended received
      ring buffers cells manager =>
      refine iff_of_true (allLive.mono sessions (by rw [manager]) ?_) ?_
      · intro other thread session' sessionId' awaiter' stored
        rw [cells]
        by_cases same : other = frame
        · subst same
          cases stored.symm.trans suspended
          exact ⟨_, Function.update_self _ _ _⟩
        · rw [Function.update_of_ne same]
          exact ⟨awaiter', stored⟩
      · simp [Cqe.EndsSession, carries, received]
  | @ended frame session sessionId awaiter carries suspended ended ring
      buffers cells manager =>
      refine iff_of_false ?_ (not_not.mpr ?_)
      · intro all
        have below := sessions.handled _ _ _ _ _ suspended
        have next : after.manager.objects.next =
            before.manager.objects.next := by
          rw [manager, ← leaveHandleSession_manager]
          exact Settled.leaveHandleSession.manager.next
        obtain ⟨other, thread, sessionId', awaiter', stored⟩ :=
          later.live_iff.mp (all session (next ▸ below))
        rw [cells] at stored
        by_cases same : other = frame
        · subst same
          rw [Function.update_self] at stored
          cases stored
        · rw [Function.update_of_ne same] at stored
          exact same (sessions.single _ _ _ _ _ _ _ _ _ stored suspended)
      · simpa [Cqe.EndsSession, carries] using ended

theorem allLive_start (sessions : SessionsKept server)
    (allLive : server.AllLive) (outcome : InitOutcome) :
    (server.startWorker worker outcome).AllLive := by
  refine allLive.mono sessions ?_ ?_
  · rw [startWorker_manager]
  · intro frame thread session sessionId awaiter stored
    exact ⟨awaiter, startWorker_old stored⟩

theorem sessionsReleased_step (reachable : serverSystem.Reachable before)
    (released : before.SessionsReleased) {label : Label}
    (step : before.step label = some after) :
    after.SessionsReleased ↔ before.NoSessionEnds label := by
  have sessions := sessionsKept_of_reachable reachable
  have later := sessionsKept_of_reachable (reachable.step step)
  rw [sessionsReleased_iff sessions] at released
  rw [sessionsReleased_iff later]
  cases (step_cases step).2 with
  | start unstarted =>
      exact iff_of_true (allLive_start sessions released _) trivial
  | @dispatch worker generated cqe rest dispatching next =>
      have single : before.NoSessionEnds (.dispatch worker generated) ↔
          ¬ cqe.EndsSession := by
        simp [NoSessionEnds, next]
      rw [single]
      exact allLive_dispatch sessions later released
        (dispatched_of_reachable reachable dispatching next generated)
  | cleanup swept =>
      refine iff_of_true (released.mono sessions ?_ ?_) trivial
      · exact (@SessionManager.cleanupExpiredSessions_lasting _
          (fun _ => True) _ _).next
      · exact fun frame thread session sessionId awaiter stored =>
          ⟨awaiter, stored⟩
  | tick => exact iff_of_true released trivial
  | submit looping => exact iff_of_true released trivial
  | submitFails looping => exact iff_of_true released trivial
  | wake waiting present => exact iff_of_true released trivial
  | endBatch dispatching empty => exact iff_of_true released trivial
  | complete completed => exact iff_of_true released trivial

/-- Exactly the runs in which no session ends keep to releasing finished
sessions. -/
theorem sessions_released_iff_none_ends {history : List (Server × Label)}
    {last : Server} (run : serverSystem.Execution {} history last) :
    (∀ state ∈ TransitionSystem.visited history last,
      state.SessionsReleased) ↔
      ∀ taken ∈ history, taken.1.NoSessionEnds taken.2 := by
  refine TransitionSystem.Execution.good_iff_guarded ?_ ?_ rfl run
  · rintro _ rfl
    rw [sessionsReleased_iff sessionsHeld_initial]
    intro session below
    cases below
  · intro before label after reachable released step
    exact sessionsReleased_step reachable released step

/-- A worker starts, and one client connects and closes its end. -/
def oneSession : List Label :=
  [.start 0 ⟨0, none, 0, some 3, 0⟩, .submit 0,
    .complete 0 0 (.accepted 7 true), .wake 0, .dispatch 0 "only",
    .endBatch 0, .submit 0, .complete 0 1 (.ended false), .wake 0,
    .dispatch 0 ""]

theorem connected_session_kept :
    ∃ last, TransitionSystem.runLabels Server.step {} (oneSession.take 5) =
        some last ∧
      ∀ state ∈ TransitionSystem.visited (TransitionSystem.traceLabels
        Server.step {} (oneSession.take 5)) last, state.SessionsReleased := by
  have run : ∃ last, TransitionSystem.runLabels Server.step {}
      (oneSession.take 5) = some last := ⟨_, rfl⟩
  obtain ⟨last, run⟩ := run
  refine ⟨last, run, (sessions_released_iff_none_ends
    (.runLabels run)).mpr ?_⟩
  have trace : TransitionSystem.traceLabels Server.step {}
      (oneSession.take 5) =
        [(_, _), (_, _), (_, _), (_, _), (_, _)] := rfl
  rw [trace]
  simp only [List.forall_mem_cons]
  refine ⟨trivial, trivial, trivial, trivial, ?_, List.forall_mem_nil _⟩
  rintro cqe ⟨⟩
  exact id

theorem finished_session_not_released :
    ∃ server, TransitionSystem.runLabels Server.step {} oneSession =
        some server ∧
      ¬ server.SessionsReleased := by
  have run : ∃ server, TransitionSystem.runLabels Server.step {}
      oneSession = some server ∧ 0 < server.manager.objects.next ∧
      server.live 0 = false := ⟨_, rfl, by decide, rfl⟩
  obtain ⟨server, run, made, finished⟩ := run
  have reachable : serverSystem.Reachable server :=
    .runLabels (.initial rfl) run
  refine ⟨server, run, fun released => ?_⟩
  have allLive := (sessionsReleased_iff
    (sessionsKept_of_reachable reachable)).mp released
  cases (allLive 0 made).symm.trans finished

end CoUring
