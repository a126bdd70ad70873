import CoUring.Server.Start
import CoUring.Session.SessionMap

namespace CoUring

open Foundation Server SessionManager

variable {server before after : Server} {worker : WorkerId} {frame : FrameId}
  {session : SessionPtr} {sessionId : SessionId} {label : Label}

/-! What a step of the server does to the sessions. -/

def Server.Handles (server : Server) (frame : FrameId)
    (session : SessionPtr) (sessionId : SessionId) : Prop :=
  ∃ thread awaiter, server.frames.cell frame =
    some ⟨thread, .handleSession session sessionId awaiter⟩

/-- The descriptor of the accept completion that a step dispatches, and the id
generated for it. -/
def Server.connection (server : Server) : Label →
    Option (RawFd × SessionId)
  | .dispatch worker generated =>
      match (server.workers worker).ioUring.cq with
      | ⟨some (.acceptGuard _), res, _⟩ :: _ =>
          if 0 ≤ res then some (res.toNat, generated) else none
      | _ => none
  | _ => none

inductive SessionStep (before : Server) (label : Label)
    (after : Server) : Prop
  | unchanged (none : before.connection label = none)
      (sweepless : ∀ order readings, label ≠ .cleanup order readings)
      (manager : after.manager = before.manager)
      (handles : ∀ frame session sessionId,
        after.Handles frame session sessionId ↔
          before.Handles frame session sessionId)
  | connected {worker : WorkerId} {generated : SessionId} {rawFd : RawFd}
      (dispatches : label = .dispatch worker generated)
      (connection : before.connection label = some (rawFd, generated))
      (manager : after.manager = before.manager.connectSession (.adopt rawFd)
        generated before.clock before.frames.next (before.frames.next + 1))
      (cells : after.frames.cell =
        before.connectedCells worker (.adopt rawFd) generated)
  | ended {frame : FrameId} {session : SessionPtr} {sessionId : SessionId}
      (none : before.connection label = none)
      (sweepless : ∀ order readings, label ≠ .cleanup order readings)
      (handled : before.Handles frame session sessionId)
      (manager : after.manager = ((before.manager.modifySession session
        GameSession.onDisconnected).removeSession sessionId).release session
          (.frame frame))
      (handles : ∀ other session sessionId,
        after.Handles other session sessionId ↔
          other ≠ frame ∧ before.Handles other session sessionId)
  | swept {order : List SessionEntry} {readings : List Nat}
      (cleanup : label = .cleanup order readings)
      (visits : order.Perm before.manager.sessions.entries)
      (counted : readings.length = order.length)
      (manager : after.manager =
        before.manager.cleanupExpiredSessions order readings)
      (frames : after.frames = before.frames)

theorem Server.session_congr (manager : after.manager = before.manager) :
    after.session = before.session := by
  funext session
  rw [Server.session, manager]
  rfl

theorem Server.handles_congr (frames : after.frames = before.frames) :
    after.Handles frame session sessionId ↔
      before.Handles frame session sessionId := by
  rw [Server.Handles, frames]
  rfl

theorem Server.connection_none {cqe : Cqe} {rest : List Cqe}
    (next : (server.workers worker).ioUring.cq = cqe :: rest)
    (other : ∀ listener, cqe.userData = some (.acceptGuard listener) →
      cqe.res < 0) (generated : SessionId) :
    server.connection (.dispatch worker generated) = none := by
  obtain ⟨userData, res, flags⟩ := cqe
  rw [connection, next]
  cases userData with
  | none => rfl
  | some address =>
      cases address with
      | acceptGuard listener => exact if_neg (not_le.mpr (other listener rfl))
      | recvAwaiter frame slot => rfl
      | sendAwaiter frame => rfl

theorem SessionStep.of_step (reachable : serverSystem.Reachable before)
    (step : before.step label = some after) :
    SessionStep before label after := by
  cases (step_cases step).2 with
  | start unstarted =>
      refine .unchanged rfl nofun (startWorker_manager _)
        fun frame session id => ?_
      exact ⟨fun ⟨thread, awaiter, stored⟩ =>
          ⟨thread, awaiter, startWorker_handler stored⟩,
        fun ⟨thread, awaiter, stored⟩ =>
          ⟨thread, awaiter, startWorker_old stored⟩⟩
  | submit looping => exact .unchanged rfl nofun rfl fun _ _ _ => Iff.rfl
  | submitFails looping => exact .unchanged rfl nofun rfl fun _ _ _ => Iff.rfl
  | wake waiting present => exact .unchanged rfl nofun rfl fun _ _ _ => Iff.rfl
  | endBatch dispatching empty =>
      exact .unchanged rfl nofun rfl fun _ _ _ => Iff.rfl
  | complete completed => exact .unchanged rfl nofun rfl fun _ _ _ => Iff.rfl
  | tick => exact .unchanged rfl nofun rfl fun _ _ _ => Iff.rfl
  | cleanup swept => exact .swept rfl swept.1 swept.2.1 rfl rfl
  | @dispatch worker generated cqe rest dispatching next =>
      have dispatched := (dispatched_of_reachable reachable dispatching next
        generated).outcome
      cases dispatched with
      | refused carries failed ring buffers cells manager =>
          refine .unchanged (connection_none next (fun _ _ => failed) _)
            nofun manager fun frame session sessionId => ?_
          rw [Server.Handles, cells]
          rfl
      | accepted carries success ring buffers cells manager =>
          refine .connected rfl ?_ manager cells
          obtain ⟨userData, res, flags⟩ := cqe
          cases carries
          rw [connection, next]
          exact if_pos success
      | @received frame session sessionId awaiter rawFd carries suspended
          received ring buffers cells manager =>
          refine .unchanged (connection_none next (fun _ isGuard => ?_) _)
            nofun manager fun other session' sessionId' => ?_
          · rw [carries] at isGuard
            cases isGuard
          · rw [Server.Handles, Server.Handles, cells]
            by_cases same : other = frame
            · subst same
              simp [suspended]
            · rw [Function.update_of_ne same]
      | @ended frame session sessionId awaiter carries suspended ended ring
          buffers cells manager =>
          refine .ended (connection_none next (fun _ isGuard => ?_) _)
            nofun ⟨worker, awaiter, suspended⟩ manager
            fun other session' sessionId' => ?_
          · rw [carries] at isGuard
            cases isGuard
          · rw [Server.Handles, Server.Handles, cells]
            by_cases same : other = frame
            · subst same
              simp
            · rw [Function.update_of_ne same, and_iff_right same]

/-! Sessions stay what they are. -/

def Server.Holder (server : Server) (owner : Owner) : Prop :=
  ∃ frame thread session sessionId callee, owner = .frame frame ∧
    server.frames.cell frame =
      some ⟨thread, .handleClientSession session sessionId callee⟩

theorem Server.Holder.ne_entry {owner : Owner} (holder : server.Holder owner) :
    owner ≠ .mapEntry sessionId := by
  obtain ⟨frame, -, -, -, -, rfl, -⟩ := holder
  exact Owner.noConfusion

theorem Server.Holder.ne_handler {owner : Owner}
    (holder : server.Holder owner)
    (handles : server.Handles frame session sessionId) :
    owner ≠ .frame frame := by
  obtain ⟨holding, _, _, _, _, rfl, stored⟩ := holder
  obtain ⟨thread, awaiter, stored'⟩ := handles
  intro same
  cases same
  rw [stored] at stored'
  cases stored'

variable {contents : GameSession}

theorem SessionsKept.holder (sessions : SessionsKept server)
    (found : server.session session = some contents) :
    ∃ shared owner, server.manager.objects.cell session = some shared ∧
      shared.session = contents ∧ owner ∈ shared.owners ∧
      server.Holder owner := by
  obtain ⟨shared, stored, rfl⟩ := Option.map_eq_some_iff.mp found
  obtain ⟨frame, thread, sessionId, callee, shared', suspended, stored', owns,
    -⟩ := sessions.held session (Heap.lt_next stored)
  cases stored.symm.trans stored'
  exact ⟨shared, .frame frame, stored, rfl, owns, frame, thread, session,
    sessionId, callee, rfl, suspended⟩

theorem Server.session_eq {shared : SharedSession}
    (stored : server.manager.objects.cell session = some shared) :
    server.session session = some shared.session :=
  congrArg (Option.map SharedSession.session) stored

theorem SessionsKept.retained (sessions : SessionsKept before)
    (retains : Retains id before.Holder before.manager after.manager)
    (found : before.session session = some contents) :
    after.session session = some contents := by
  obtain ⟨shared, owner, stored, rfl, owns, holder⟩ := sessions.holder found
  obtain ⟨shared', stored', -, same⟩ :=
    retains.owned session shared owner holder stored owns
  rw [session_eq stored']
  exact congrArg some same

theorem SessionManager.connectSession_retains {client : File}
    {generated : SessionId} {now : Nat} {frame handler : FrameId}
    {manager : SessionManager} (made : manager.EntriesMade)
    {kept : Owner → Prop}
    (foreign : ∀ owner, kept owner → owner ≠ .mapEntry generated) :
    Retains id kept manager
      (manager.connectSession client generated now frame handler) := by
  have added := addSession_added made (some client) generated now
  have grown : Retains id kept manager
      (manager.addSession (some client) generated now) :=
    .addSession _ now foreign
  refine ⟨?_, ?_⟩
  · rw [connectSession_next made]
    exact Nat.le_succ _
  · intro session shared owner keeps stored owns
    obtain ⟨shared', stored', owns', same⟩ :=
      grown.owned session shared owner keeps stored owns
    have old : session ≠ manager.objects.next := Heap.ne_next stored
    refine ⟨shared', ?_, owns', same⟩
    simp [SessionManager.connectSession, modifySession_cell, share_cell, old,
      stored']

/-- The end of a `HandleSession` changes the flag of its own session only. -/
theorem SessionsKept.left (sessions : SessionsKept before)
    (handled : before.Handles frame session sessionId)
    (manager : after.manager = ((before.manager.modifySession session
      GameSession.onDisconnected).removeSession sessionId).release session
        (.frame frame))
    {other : SessionPtr} (found : before.session other = some contents) :
    after.session other = some
      (if other = session then contents.onDisconnected else contents) := by
  obtain ⟨shared, owner, stored, rfl, owns, holder⟩ := sessions.holder found
  have modified : (before.manager.modifySession session
      GameSession.onDisconnected).objects.cell other = some { shared with
        session := if other = session then shared.session.onDisconnected
          else shared.session } := by
    rw [modifySession_cell, stored]
    split
    · rfl
    · rfl
  have retains : Retains id before.Holder
      (before.manager.modifySession session GameSession.onDisconnected)
      after.manager := by
    rw [manager]
    exact (Retains.removeSession fun owner holder => holder.ne_entry).trans
      (.release fun owner holder => holder.ne_handler handled)
  obtain ⟨shared', stored', -, same⟩ :=
    retains.owned other _ owner holder modified owns
  rw [session_eq stored']
  exact congrArg some same

theorem SessionsKept.swept (sessions : SessionsKept before)
    {order : List SessionEntry} {readings : List Nat}
    (manager : after.manager =
      before.manager.cleanupExpiredSessions order readings)
    (found : before.session session = some contents) :
    after.session session = some contents := by
  refine sessions.retained ?_ found
  rw [manager]
  exact sweep_retains _ _ fun owner holder id _ => holder.ne_entry

theorem SessionManager.connectSession_lookup {client : File}
    {generated : SessionId} {now : Nat} {frame handler : FrameId}
    {manager : SessionManager} :
    (manager.connectSession client generated now frame
      handler).sessions.lookup sessionId =
      if sessionId = generated then some manager.objects.next
      else manager.sessions.lookup sessionId := by
  simp only [SessionManager.connectSession, modifySession_sessions,
    share_sessions, addSession_lookup]

/-- A new session comes up connected, and the others stay as they are. -/
theorem SessionsKept.joined (sessions : SessionsKept before) {rawFd : RawFd}
    {generated : SessionId}
    (manager : after.manager = before.manager.connectSession (.adopt rawFd)
      generated before.clock before.frames.next (before.frames.next + 1)) :
    after.session before.manager.objects.next =
        some ⟨some (.adopt rawFd), generated, before.clock, true⟩ ∧
      ∀ session contents, before.session session = some contents →
        after.session session = some contents := by
  refine ⟨?_, fun session contents found => sessions.retained ?_ found⟩
  · rw [Server.session, manager, connectSession_created sessions.made]
    rfl
  · rw [manager]
    exact connectSession_retains sessions.made fun _ holder => holder.ne_entry

theorem Server.connected_handles {rawFd : RawFd} {generated : SessionId}
    (cells : after.frames.cell =
      before.connectedCells worker (.adopt rawFd) generated) :
    after.Handles frame session sessionId ↔
      frame = before.frames.next + 1 ∧
        session = before.manager.objects.next ∧ sessionId = generated ∨
      before.Handles frame session sessionId := by
  rw [Server.Handles, cells]
  constructor
  · rintro ⟨thread, awaiter, stored⟩
    rcases connectedCells_cases _ stored with
      ⟨-, other⟩ | ⟨here, same⟩ | ⟨-, other⟩ | old
    · cases other
    · cases same
      exact .inl ⟨here, rfl, rfl⟩
    · cases other
    · exact .inr ⟨thread, awaiter, old⟩
  · rintro (⟨rfl, rfl, rfl⟩ | ⟨thread, awaiter, stored⟩)
    · exact ⟨worker, _, connectedCells_handler _⟩
    · exact ⟨thread, awaiter, connectedCells_old _ stored⟩

/-- The flag of a session tells whether its `HandleSession` goes on, and the
map names only sessions with one. -/
structure SessionFlags (server : Server) : Prop where
  owned : server.manager.EntriesOwned
  handled : ∀ frame session sessionId,
    server.Handles frame session sessionId →
    ∃ contents, server.session session = some contents ∧
      contents.connected = true ∧ contents.sessionId = sessionId
  connected : ∀ session contents, server.session session = some contents →
    contents.connected = true →
    ∃ frame, server.Handles frame session contents.sessionId
  entries : ∀ sessionId session,
    server.manager.getSession sessionId = some session →
    ∃ frame, server.Handles frame session sessionId

theorem SessionsKept.one_handler (sessions : SessionsKept server)
    {other : FrameId} {otherId : SessionId}
    (handles : server.Handles frame session sessionId)
    (handles' : server.Handles other session otherId) : other = frame := by
  obtain ⟨thread, awaiter, stored⟩ := handles
  obtain ⟨thread', awaiter', stored'⟩ := handles'
  exact sessions.single _ _ _ _ _ _ _ _ _ stored' stored

theorem Server.Handles.unique {other : SessionPtr} {otherId : SessionId}
    (handles : server.Handles frame session sessionId)
    (handles' : server.Handles frame other otherId) :
    other = session ∧ otherId = sessionId := by
  obtain ⟨thread, awaiter, stored⟩ := handles
  obtain ⟨thread', awaiter', stored'⟩ := handles'
  cases stored.symm.trans stored'
  exact ⟨rfl, rfl⟩

theorem SessionsKept.session_before (sessions : SessionsKept before)
    (next : after.manager.objects.next = before.manager.objects.next)
    (found : after.session session = some contents) :
    ∃ contents', before.session session = some contents' := by
  obtain ⟨shared, stored, -⟩ := Option.map_eq_some_iff.mp found
  have below := Heap.lt_next stored
  rw [next] at below
  obtain ⟨contents', -, found', -⟩ := sessions.found below
  exact ⟨contents', found'⟩

theorem SessionManager.cleanupExpiredSessions_next
    {manager : SessionManager} (order : List SessionEntry)
    (readings : List Nat) :
    (manager.cleanupExpiredSessions order readings).objects.next =
      manager.objects.next := by
  have lasting : Lasting (fun _ => False) manager
      (manager.cleanupExpiredSessions order readings) :=
    cleanupExpiredSessions_lasting order readings
  exact lasting.next

theorem SessionManager.left_next {manager : SessionManager} :
    (((manager.modifySession session
      GameSession.onDisconnected).removeSession sessionId).release session
        (.frame frame)).objects.next = manager.objects.next := by
  have removed : Lasting (fun _ => False)
      (manager.modifySession session GameSession.onDisconnected)
      ((manager.modifySession session
        GameSession.onDisconnected).removeSession sessionId) :=
    removeSession_lasting
  rw [release_next, removed.next, modifySession_next]

theorem SessionManager.left_lookup {manager : SessionManager}
    {otherId : SessionId} :
    (((manager.modifySession session
      GameSession.onDisconnected).removeSession sessionId).release session
        (.frame frame)).sessions.lookup otherId =
      if otherId = sessionId then none
      else manager.sessions.lookup otherId := by
  rw [release_sessions, removeSession_lookup, modifySession_sessions]

theorem SessionFlags.same (flags : SessionFlags before)
    (manager : after.manager = before.manager)
    (handles : ∀ frame session sessionId,
      after.Handles frame session sessionId ↔
        before.Handles frame session sessionId) : SessionFlags after := by
  have same := session_congr manager
  refine ⟨?_, ?_, ?_, ?_⟩
  · rw [manager]
    exact flags.owned
  · intro frame session sessionId handled
    rw [same]
    exact flags.handled frame session sessionId ((handles _ _ _).mp handled)
  · intro session contents found isConnected
    rw [same] at found
    obtain ⟨frame, handled⟩ :=
      flags.connected session contents found isConnected
    exact ⟨frame, (handles _ _ _).mpr handled⟩
  · intro sessionId session found
    rw [manager] at found
    obtain ⟨frame, handled⟩ := flags.entries sessionId session found
    exact ⟨frame, (handles _ _ _).mpr handled⟩

theorem SessionFlags.joined (flags : SessionFlags before)
    (sessions : SessionsKept before) {rawFd : RawFd} {generated : SessionId}
    (manager : after.manager = before.manager.connectSession (.adopt rawFd)
      generated before.clock before.frames.next (before.frames.next + 1))
    (cells : after.frames.cell =
      before.connectedCells worker (.adopt rawFd) generated) :
    SessionFlags after := by
  obtain ⟨new, old⟩ := sessions.joined manager
  have handles := fun frame session sessionId =>
    @connected_handles before after worker frame session sessionId rawFd
      generated cells
  refine ⟨?_, ?_, ?_, ?_⟩
  · rw [manager]
    exact (((flags.owned.addSession _ _).share _).share _).modifySession
      (·.onConnected before.clock) fun _ => rfl
  · intro frame session sessionId handled
    rcases (handles _ _ _).mp handled with ⟨-, rfl, rfl⟩ | earlier
    · exact ⟨_, new, rfl, rfl⟩
    · obtain ⟨contents, found, rest⟩ :=
        flags.handled frame session sessionId earlier
      exact ⟨contents, old session contents found, rest⟩
  · intro session contents found isConnected
    by_cases isNew : session = before.manager.objects.next
    · subst isNew
      obtain rfl := Option.some.inj (new.symm.trans found)
      exact ⟨_, (handles _ _ _).mpr (.inl ⟨rfl, rfl, rfl⟩)⟩
    · obtain ⟨shared, stored, -⟩ := Option.map_eq_some_iff.mp found
      have below := Heap.lt_next stored
      rw [manager, connectSession_next sessions.made] at below
      obtain ⟨earlier, -, found', -⟩ := sessions.found
        (Nat.lt_of_le_of_ne (Nat.lt_succ_iff.mp below) isNew)
      obtain rfl := Option.some.inj
        (found.symm.trans (old session earlier found'))
      obtain ⟨frame, handled⟩ :=
        flags.connected session contents found' isConnected
      exact ⟨frame, (handles _ _ _).mpr (.inr handled)⟩
  · intro sessionId session found
    rw [getSession, manager, connectSession_lookup] at found
    split at found
    next same =>
      obtain rfl := Option.some.inj found
      exact ⟨_, (handles _ _ _).mpr (.inl ⟨rfl, rfl, same⟩)⟩
    next different =>
      obtain ⟨frame, handled⟩ := flags.entries sessionId session found
      exact ⟨frame, (handles _ _ _).mpr (.inr handled)⟩

theorem SessionFlags.left (flags : SessionFlags before)
    (sessions : SessionsKept before)
    (handled : before.Handles frame session sessionId)
    (manager : after.manager = ((before.manager.modifySession session
      GameSession.onDisconnected).removeSession sessionId).release session
        (.frame frame))
    (handles : ∀ other session sessionId,
      after.Handles other session sessionId ↔
        other ≠ frame ∧ before.Handles other session sessionId) :
    SessionFlags after := by
  have next : after.manager.objects.next = before.manager.objects.next := by
    rw [manager, left_next]
  refine ⟨?_, ?_, ?_, ?_⟩
  · rw [manager]
    have flagged : (before.manager.modifySession session
        GameSession.onDisconnected).EntriesOwned :=
      flags.owned.modifySession GameSession.onDisconnected fun _ => rfl
    exact flagged.removeSession.release frame
  · intro other session' sessionId' isHandled
    obtain ⟨different, earlier⟩ := (handles _ _ _).mp isHandled
    obtain ⟨contents, found, rest⟩ := flags.handled _ _ _ earlier
    have apart : session' ≠ session := by
      rintro rfl
      exact different (sessions.one_handler handled earlier)
    refine ⟨contents, ?_, rest⟩
    rw [sessions.left handled manager found, if_neg apart]
  · intro session' contents found isConnected
    obtain ⟨earlier, found'⟩ := sessions.session_before next found
    rw [sessions.left handled manager found'] at found
    by_cases apart : session' = session
    · rw [if_pos apart] at found
      obtain rfl := Option.some.inj found
      cases isConnected
    · rw [if_neg apart] at found
      obtain rfl := Option.some.inj found
      obtain ⟨other, isHandled⟩ :=
        flags.connected session' earlier found' isConnected
      refine ⟨other, (handles _ _ _).mpr ⟨?_, isHandled⟩⟩
      rintro rfl
      exact apart (handled.unique isHandled).1
  · intro id session' found
    rw [getSession, manager, left_lookup] at found
    obtain ⟨apart, found⟩ := Option.ite_none_left_eq_some.mp found
    obtain ⟨other, isHandled⟩ := flags.entries id session' found
    refine ⟨other, (handles _ _ _).mpr ⟨?_, isHandled⟩⟩
    rintro rfl
    exact apart (handled.unique isHandled).2

theorem SessionFlags.swept (flags : SessionFlags before)
    (sessions : SessionsKept before) {order : List SessionEntry}
    {readings : List Nat}
    (manager : after.manager =
      before.manager.cleanupExpiredSessions order readings)
    (frames : after.frames = before.frames) : SessionFlags after := by
  have next : after.manager.objects.next = before.manager.objects.next := by
    rw [manager, cleanupExpiredSessions_next]
  refine ⟨?_, ?_, ?_, ?_⟩
  · rw [manager]
    exact flags.owned.sweep _ _
  · intro frame session sessionId isHandled
    obtain ⟨contents, found, rest⟩ :=
      flags.handled _ _ _ ((handles_congr frames).mp isHandled)
    exact ⟨contents, sessions.swept manager found, rest⟩
  · intro session contents found isConnected
    obtain ⟨earlier, found'⟩ := sessions.session_before next found
    obtain rfl := Option.some.inj
      (found.symm.trans (sessions.swept manager found'))
    obtain ⟨frame, isHandled⟩ :=
      flags.connected session contents found' isConnected
    exact ⟨frame, (handles_congr frames).mpr isHandled⟩
  · intro sessionId session found
    rw [getSession, manager, cleanupExpiredSessions, sweep_lookup] at found
    obtain ⟨-, found⟩ := Option.ite_none_left_eq_some.mp found
    obtain ⟨frame, isHandled⟩ := flags.entries sessionId session found
    exact ⟨frame, (handles_congr frames).mpr isHandled⟩

theorem SessionFlags.step (flags : SessionFlags before)
    (sessions : SessionsKept before) (step : SessionStep before label after) :
    SessionFlags after := by
  cases step with
  | unchanged none sweepless manager handles => exact flags.same manager handles
  | connected dispatches connection manager cells =>
      exact flags.joined sessions manager cells
  | ended none sweepless handled manager handles =>
      exact flags.left sessions handled manager handles
  | swept cleanup visits counted manager frames =>
      exact flags.swept sessions manager frames

theorem sessionFlags_of_reachable
    (reachable : serverSystem.Reachable server) : SessionFlags server := by
  refine TransitionSystem.Invariant.of_reachable SessionFlags ?_ ?_ _ reachable
  · rintro _ rfl
    exact ⟨nofun, nofun, nofun, nofun⟩
  · intro before label after reached flags step
    exact flags.step (sessionsKept_of_reachable reached)
      (.of_step reached step)

end CoUring
