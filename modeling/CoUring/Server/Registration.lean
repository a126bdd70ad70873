import CoUring.Server.SessionSteps

namespace CoUring

open Foundation Server SessionManager

variable {server before after first last : Server}
  {history : List (Server × Label)} {frame : FrameId}
  {session : SessionPtr} {sessionId : SessionId} {label : Label}

def SessionManager.Registered (manager : SessionManager)
    (session : SessionPtr) : Prop :=
  ∃ sessionId, manager.getSession sessionId = some session

/-- A session that is connected is in the map, and so is one that still
receives. -/
structure ConnectedRegistered (server : Server) : Prop where
  connected : ∀ session contents, server.session session = some contents →
    contents.connected = true → server.manager.Registered session
  receiving : ∀ frame session sessionId,
    server.Handles frame session sessionId →
    server.manager.Registered session

/-- Should the step be a sweep, it finds no session expired. -/
def Server.SweepsNone (server : Server) : Label → Prop
  | .cleanup order readings =>
      ∀ visited ∈ order.zip readings,
        server.manager.entryExpired visited.1.2 visited.2 = false
  | _ => True

instance (server : Server) : DecidablePred server.SweepsNone
  | .cleanup order readings => inferInstanceAs (Decidable
      (∀ visited ∈ order.zip readings,
        server.manager.entryExpired visited.1.2 visited.2 = false))
  | .start _ _ | .submit _ | .submitFails _ | .wake _ | .dispatch _ _
  | .endBatch _ | .complete _ _ _ | .tick _ => inferInstanceAs (Decidable True)

/-- A new id is not in the map yet, and a sweep finds nothing. -/
structure LeavesRegistered (server : Server) (label : Label) : Prop where
  fresh : ∀ connected ∈ server.connection label,
    server.manager.getSession connected.2 = none
  sweepsNone : server.SweepsNone label

instance (server : Server) (label : Label) :
    Decidable (LeavesRegistered server label) :=
  decidable_of_iff ((∀ connected ∈ server.connection label,
      server.manager.getSession connected.2 = none) ∧
      server.SweepsNone label)
    ⟨fun both => ⟨both.1, both.2⟩, fun leaves => ⟨leaves.1, leaves.2⟩⟩

theorem Server.sweepsNone_of_ne
    (sweepless : ∀ order readings, label ≠ .cleanup order readings) :
    server.SweepsNone label := by
  cases label with
  | cleanup order readings => exact absurd rfl (sweepless order readings)
  | _ => trivial

def Server.Listed (server : Server) : Prop :=
  ∀ frame session sessionId, server.Handles frame session sessionId →
    server.manager.getSession sessionId = some session

theorem SessionFlags.listed_iff (flags : SessionFlags server) :
    ConnectedRegistered server ↔ server.Listed := by
  constructor
  · intro registered frame session sessionId handles
    obtain ⟨contents, found, -, rfl⟩ :=
      flags.handled frame session sessionId handles
    obtain ⟨key, entry⟩ := registered.receiving frame session _ handles
    obtain ⟨shared, stored, -, rfl⟩ := flags.owned key session entry
    obtain rfl := Option.some.inj (found.symm.trans (session_eq stored))
    exact entry
  · intro listed
    refine ⟨fun session contents found isConnected => ?_,
      fun frame session sessionId handles =>
        ⟨sessionId, listed frame session sessionId handles⟩⟩
    obtain ⟨frame, handles⟩ :=
      flags.connected session contents found isConnected
    exact ⟨_, listed frame session _ handles⟩

theorem SessionFlags.lt_next (flags : SessionFlags server)
    (handles : server.Handles frame session sessionId) :
    session < server.manager.objects.next := by
  obtain ⟨contents, found, -⟩ := flags.handled frame session sessionId handles
  obtain ⟨shared, stored, -⟩ := Option.map_eq_some_iff.mp found
  exact Heap.lt_next stored

theorem SessionFlags.listed_joined (flags : SessionFlags before)
    (listed : before.Listed) {worker : WorkerId} {rawFd : RawFd}
    {generated : SessionId}
    (manager : after.manager = before.manager.connectSession (.adopt rawFd)
      generated before.clock before.frames.next (before.frames.next + 1))
    (cells : after.frames.cell =
      before.connectedCells worker (.adopt rawFd) generated) :
    after.Listed ↔ before.manager.getSession generated = none := by
  have lookup : ∀ sessionId, after.manager.getSession sessionId =
      if sessionId = generated then some before.manager.objects.next
      else before.manager.getSession sessionId := by
    intro sessionId
    rw [getSession, manager, connectSession_lookup]
    rfl
  constructor
  · intro listed'
    by_contra present
    obtain ⟨session, entry⟩ := Option.ne_none_iff_exists'.mp present
    obtain ⟨frame, handles⟩ := flags.entries generated session entry
    have entry' := listed' frame session generated
      ((connected_handles cells).mpr (.inr handles))
    rw [lookup, if_pos rfl] at entry'
    exact Nat.ne_of_gt (flags.lt_next handles) (Option.some.inj entry')
  · intro absent frame session sessionId handles
    rw [lookup]
    rcases (connected_handles cells).mp handles with ⟨-, rfl, rfl⟩ | earlier
    · exact if_pos rfl
    · have entry := listed frame session sessionId earlier
      have different : sessionId ≠ generated := by
        rintro rfl
        rw [absent] at entry
        cases entry
      rw [if_neg different]
      exact entry

theorem SessionsKept.listed_left (sessions : SessionsKept before)
    (listed : before.Listed)
    (handled : before.Handles frame session sessionId)
    (manager : after.manager = ((before.manager.modifySession session
      GameSession.onDisconnected).removeSession sessionId).release session
        (.frame frame))
    (handles : ∀ other session sessionId,
      after.Handles other session sessionId ↔
        other ≠ frame ∧ before.Handles other session sessionId) :
    after.Listed := by
  intro other session' sessionId' isHandled
  obtain ⟨different, earlier⟩ := (handles _ _ _).mp isHandled
  have entry := listed other session' sessionId' earlier
  have apart : sessionId' ≠ sessionId := by
    rintro rfl
    obtain rfl := Option.some.inj
      (entry.symm.trans (listed frame session _ handled))
    exact different (sessions.one_handler handled earlier)
  rw [getSession, manager, left_lookup, if_neg apart]
  exact entry

theorem SessionFlags.listed_swept (flags : SessionFlags before)
    (listed : before.Listed) {order : List SessionEntry}
    {readings : List Nat} (visits : order.Perm before.manager.sessions.entries)
    (manager : after.manager =
      before.manager.cleanupExpiredSessions order readings)
    (frames : after.frames = before.frames) :
    after.Listed ↔ before.manager.foundExpired order readings = [] := by
  have lookup : ∀ sessionId, after.manager.getSession sessionId =
      if sessionId ∈ before.manager.foundExpired order readings then none
      else before.manager.getSession sessionId := by
    intro sessionId
    rw [getSession, manager, cleanupExpiredSessions, sweep_lookup]
    rfl
  constructor
  · intro listed'
    refine List.eq_nil_iff_forall_not_mem.mpr fun sessionId expired => ?_
    obtain ⟨session, entry⟩ := foundExpired_found visits expired
    obtain ⟨frame, handled⟩ := flags.entries sessionId session entry
    have entry' := listed' frame session sessionId
      ((handles_congr frames).mpr handled)
    rw [lookup, if_pos expired] at entry'
    cases entry'
  · intro noneExpired frame session sessionId handled
    rw [lookup, noneExpired, if_neg List.not_mem_nil]
    exact listed frame session sessionId ((handles_congr frames).mp handled)

theorem registered_step (reachable : serverSystem.Reachable before)
    (registered : ConnectedRegistered before)
    (step : before.step label = some after) :
    ConnectedRegistered after ↔ LeavesRegistered before label := by
  have flags := sessionFlags_of_reachable reachable
  have sessions := sessionsKept_of_reachable reachable
  have listed := flags.listed_iff.mp registered
  have stepped : SessionStep before label after := .of_step reachable step
  rw [(flags.step sessions stepped).listed_iff]
  cases stepped with
  | unchanged none sweepless manager handles =>
      refine iff_of_true (fun frame session sessionId handled => ?_)
        ⟨fun connected member => ?_, sweepsNone_of_ne sweepless⟩
      · rw [manager]
        exact listed frame session sessionId ((handles _ _ _).mp handled)
      · rw [none] at member
        cases member
  | connected dispatches connection manager cells =>
      rw [flags.listed_joined listed manager cells]
      subst dispatches
      constructor
      · intro absent
        refine ⟨fun connected member => ?_, trivial⟩
        rw [connection] at member
        cases member
        exact absent
      · intro leaves
        exact leaves.fresh _ connection
  | ended none sweepless handled manager handles =>
      refine iff_of_true (sessions.listed_left listed handled manager handles)
        ⟨fun connected member => ?_, sweepsNone_of_ne sweepless⟩
      rw [none] at member
      cases member
  | swept cleanup visits counted manager frames =>
      rw [flags.listed_swept listed visits manager frames,
        foundExpired_eq_nil]
      subst cleanup
      exact ⟨fun noneExpired => ⟨nofun, noneExpired⟩,
        fun leaves => leaves.sweepsNone⟩

/-- A connected session is registered throughout the runs whose sweeps find
nothing expired and whose new ids are new to the map. -/
theorem connected_registered_iff (start : serverSystem.initial first)
    (run : serverSystem.Execution first history last) :
    (∀ server ∈ TransitionSystem.visited history last,
      ConnectedRegistered server) ↔
      ∀ taken ∈ history, LeavesRegistered taken.1 taken.2 := by
  refine run.good_iff_guarded ?_ ?_ start
  · rintro _ rfl
    exact ⟨nofun, nofun⟩
  · intro server label next reachable registered step
    exact registered_step reachable registered step

def clientConnects : List Label :=
  [.start 0 ⟨0, none, 0, some 3, 0⟩, .submit 0,
    .complete 0 0 (.accepted 7 true), .wake 0, .dispatch 0 "first"]

def clientLeaves : List Label :=
  [.endBatch 0, .submit 0, .complete 0 1 (.ended false), .wake 0,
    .dispatch 0 ""]

theorem swept_early_stays_registered :
    ∃ last, TransitionSystem.runLabels Server.step {}
        (clientConnects ++ .cleanup [⟨"first", 0⟩] [0] :: clientLeaves) =
          some last ∧
      ∀ server ∈ TransitionSystem.visited (TransitionSystem.traceLabels
          Server.step {} (clientConnects ++
            .cleanup [⟨"first", 0⟩] [0] :: clientLeaves)) last,
        ConnectedRegistered server := by
  have run : ∃ last, TransitionSystem.runLabels Server.step {}
      (clientConnects ++ .cleanup [⟨"first", 0⟩] [0] :: clientLeaves) =
        some last := ⟨_, rfl⟩
  obtain ⟨last, run⟩ := run
  refine ⟨last, run, (connected_registered_iff rfl (.runLabels run)).mpr ?_⟩
  decide +kernel

/-- Half an hour after it came a client is still connected, and its session is
gone from the map. -/
theorem idle_session_unregistered :
    ∃ last, TransitionSystem.runLabels Server.step {}
        (clientConnects ++ [.tick (GameSession.defaultTimeout + 1),
          .cleanup [⟨"first", 0⟩] [GameSession.defaultTimeout + 1]]) =
        some last ∧
      ¬ ConnectedRegistered last := by
  have run : ∃ last, TransitionSystem.runLabels Server.step {}
      (clientConnects ++ [.tick (GameSession.defaultTimeout + 1),
        .cleanup [⟨"first", 0⟩] [GameSession.defaultTimeout + 1]]) =
        some last ∧
      (last.session 0).map GameSession.connected = some true ∧
      last.manager.sessions.entries = [] := ⟨_, rfl, rfl, rfl⟩
  obtain ⟨last, run, isConnected, empty⟩ := run
  refine ⟨last, run, fun registered => ?_⟩
  obtain ⟨contents, found, isConnected⟩ :=
    Option.map_eq_some_iff.mp isConnected
  obtain ⟨sessionId, entry⟩ :=
    registered.connected 0 contents found isConnected
  have member := AList.mem_lookup_iff.mp entry
  rw [empty] at member
  cases member

end CoUring
