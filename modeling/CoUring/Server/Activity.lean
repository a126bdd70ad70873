import CoUring.Server.Registration
import CoUring.Session.CleanupSweep

namespace CoUring

open Foundation Server SessionManager

variable {server before after last : Server}
  {history earlier : List (Server × Label)} {label : Label}
  {session : SessionPtr}

/-! When a session was active. -/

def Server.connects (server : Server) (label : Label) : Option SessionPtr :=
  (server.connection label).map fun _ => server.manager.objects.next

def Server.receives (server : Server) : Label → Option SessionPtr
  | .dispatch worker _ =>
      match (server.workers worker).ioUring.cq with
      | ⟨some (.recvAwaiter frame .awaited), res, _⟩ :: _ =>
          match server.frames.cell frame with
          | some ⟨_, .handleSession session _ _⟩ =>
              if 0 < res then some session else none
          | _ => none
      | _ => none
  | _ => none

/-- The clock at each step of a run that does something to a session. -/
def times (event : Server → Label → Option SessionPtr)
    (history : List (Server × Label)) (session : SessionPtr) : List Nat :=
  (history.filter fun taken => event taken.1 taken.2 = some session).map
    fun taken => taken.1.clock

/-- Should the step be a sweep, what holds of each entry it examines and the
reading it takes there. -/
def Label.Examines (holds : List SessionEntry → List Nat →
    SessionEntry × Nat → Prop) : Label → Prop
  | .cleanup order readings =>
      ∀ visited ∈ order.zip readings, holds order readings visited
  | _ => True

instance (holds : List SessionEntry → List Nat → SessionEntry × Nat → Prop)
    [∀ order readings visited, Decidable (holds order readings visited)] :
    DecidablePred (Label.Examines holds)
  | .cleanup order readings => inferInstanceAs (Decidable
      (∀ visited ∈ order.zip readings, holds order readings visited))
  | .start _ _ | .submit _ | .submitFails _ | .wake _ | .dispatch _ _
  | .endBatch _ | .complete _ _ _ | .tick _ => inferInstanceAs (Decidable True)

/-- A sweep removes a session only if it examines it more than half an hour
after the session last connected or received. -/
def SparesActive (earlier : List (Server × Label)) (server : Server)
    (label : Label) : Prop :=
  label.Examines fun order readings visited =>
    (server.manager.cleanupExpiredSessions order readings).getSession
        visited.1.1 = none →
      ∀ time ∈ times Server.connects earlier visited.1.2 ++
          times Server.receives earlier visited.1.2,
        time + GameSession.defaultTimeout < visited.2

def ActivityKept (history : List (Server × Label)) : Prop :=
  ∀ index (within : index < history.length),
    SparesActive (history.take index) history[index].1 history[index].2

/-- Whatever a sweep examines more than half an hour after it connected has not
received anything for as long either. -/
def OutlivesReceipts (earlier : List (Server × Label))
    (label : Label) : Prop :=
  label.Examines fun _ _ visited =>
    (∀ connected ∈ times Server.connects earlier visited.1.2,
      connected + GameSession.defaultTimeout < visited.2) →
    ∀ received ∈ times Server.receives earlier visited.1.2,
      received + GameSession.defaultTimeout < visited.2

instance (earlier : List (Server × Label)) (server : Server) (label : Label) :
    Decidable (SparesActive earlier server label) :=
  inferInstanceAs (Decidable (label.Examines _))

instance (earlier : List (Server × Label)) (label : Label) :
    Decidable (OutlivesReceipts earlier label) :=
  inferInstanceAs (Decidable (label.Examines _))

instance (history : List (Server × Label)) :
    Decidable (ActivityKept history) :=
  inferInstanceAs (Decidable (∀ index (within : index < history.length),
    SparesActive (history.take index) history[index].1 history[index].2))

/-! The heartbeat of a session is the time at which it connected. -/

theorem times_snoc (event : Server → Label → Option SessionPtr) :
    times event (history ++ [(before, label)]) session =
      times event history session ++
        if event before label = some session then [before.clock] else [] := by
  rw [times, times, List.filter_append, List.map_append]
  apply congrArg
  split
  next holds => simp [holds]
  next fails => simp [fails]

def Server.heartbeat (server : Server) (session : SessionPtr) : Option Nat :=
  (server.session session).map GameSession.lastHeartbeat

theorem Server.session_beyond
    (beyond : server.manager.objects.next ≤ session) :
    server.session session = none := by
  rw [Server.session, server.manager.objects.fresh session beyond]
  rfl

theorem SessionsKept.beyond (sessions : SessionsKept server)
    (missing : server.session session = none) :
    server.manager.objects.next ≤ session := by
  by_contra below
  obtain ⟨contents, -, found, -⟩ := sessions.found (Nat.lt_of_not_le below)
  cases missing.symm.trans found

theorem heartbeat_of_missing (missing : before.session session = none)
    (beyond : after.manager.objects.next ≤ session) :
    after.heartbeat session = before.heartbeat session := by
  rw [Server.heartbeat, Server.heartbeat, session_beyond beyond, missing]

theorem SessionStep.heartbeat (stepped : SessionStep before label after)
    (sessions : SessionsKept before) (session : SessionPtr) :
    after.heartbeat session =
      if before.connects label = some session then some before.clock
      else before.heartbeat session := by
  cases stepped with
  | unchanged none sweepless manager handles =>
      rw [Server.heartbeat, session_congr manager, connects, none]
      rfl
  | connected dispatches connection manager cells =>
      obtain ⟨new, old⟩ := sessions.joined manager
      have connects : before.connects label =
          some before.manager.objects.next := by
        rw [Server.connects, connection]
        rfl
      rw [connects]
      split
      next same =>
        cases same
        exact congrArg (Option.map GameSession.lastHeartbeat) new
      next different =>
        cases found : before.session session with
        | some contents =>
            rw [Server.heartbeat, Server.heartbeat, old session contents found,
              found]
        | none =>
            have beyond : after.manager.objects.next ≤ session := by
              rw [manager, connectSession_next sessions.made]
              apply Nat.lt_of_le_of_ne (sessions.beyond found)
              exact fun same => different (congrArg some same)
            exact heartbeat_of_missing found beyond
  | ended none sweepless handled manager handles =>
      rw [Server.connects, none, Option.map_none, if_neg nofun]
      cases found : before.session session with
      | some contents =>
          rw [Server.heartbeat, Server.heartbeat, found,
            sessions.left handled manager found]
          split
          · rfl
          · rfl
      | none =>
          have beyond : after.manager.objects.next ≤ session := by
            rw [manager, left_next]
            exact sessions.beyond found
          exact heartbeat_of_missing found beyond
  | swept cleanup visits counted manager frames =>
      subst cleanup
      rw [if_neg nofun]
      cases found : before.session session with
      | some contents =>
          rw [Server.heartbeat, Server.heartbeat, found,
            sessions.swept manager found]
      | none =>
          have beyond : after.manager.objects.next ≤ session := by
            rw [manager, cleanupExpiredSessions_next]
            exact sessions.beyond found
          exact heartbeat_of_missing found beyond

theorem connects_of_run (run : serverSystem.Execution {} history last)
    (session : SessionPtr) :
    times Server.connects history session =
      (last.heartbeat session).toList := by
  induction run with
  | refl => rfl
  | @snoc last next history label run step induction =>
      have reachable := run.reachable rfl
      have sessions := sessionsKept_of_reachable reachable
      have stepped : SessionStep last label next := .of_step reachable step
      rw [times_snoc, induction, stepped.heartbeat sessions]
      split
      next connects =>
        obtain ⟨connection, -, rfl⟩ := Option.map_eq_some_iff.mp connects
        rw [Server.heartbeat, session_beyond (Nat.le_refl _)]
        rfl
      next other => exact List.append_nil _

/-! Sweeps. -/

theorem entryExpired_heartbeat {now : Nat} :
    server.manager.entryExpired session now = true ↔
      ∃ heartbeat, server.heartbeat session = some heartbeat ∧
        heartbeat + GameSession.defaultTimeout < now := by
  rw [entryExpired_iff]
  constructor
  · rintro ⟨shared, stored, idle⟩
    refine ⟨shared.session.lastHeartbeat, ?_, by omega⟩
    rw [Server.heartbeat, session_eq stored]
    rfl
  · rintro ⟨heartbeat, found, idle⟩
    obtain ⟨contents, isContents, rfl⟩ := Option.map_eq_some_iff.mp found
    obtain ⟨shared, stored, rfl⟩ := Option.map_eq_some_iff.mp isContents
    exact ⟨shared, stored, by omega⟩

/-- Received data does not count: a sweep removes what it examines more than
half an hour after it connected. -/
theorem sweep_removes_iff
    (run : serverSystem.Execution {} earlier server)
    {order : List SessionEntry} {readings : List Nat}
    (step : server.step (.cleanup order readings) = some after)
    {visited : SessionEntry × Nat} (member : visited ∈ order.zip readings) :
    (server.manager.cleanupExpiredSessions order readings).getSession
        visited.1.1 = none ↔
      ∀ connected ∈ times Server.connects earlier visited.1.2,
        connected + GameSession.defaultTimeout < visited.2 := by
  have reachable := run.reachable rfl
  have flags := sessionFlags_of_reachable reachable
  obtain ⟨visits, counted, -⟩ : order.Perm server.manager.sessions.entries ∧
      readings.length = order.length ∧
      (server.clock :: readings).Pairwise (· ≤ ·) := by
    cases (step_cases step).2 with
    | cleanup swept => exact swept
  have entry := visits.mem_iff.mp (List.of_mem_zip member).1
  obtain ⟨shared, stored, -⟩ := flags.owned visited.1.1 visited.1.2
    (AList.mem_lookup_iff.mpr entry)
  have beats : server.heartbeat visited.1.2 =
      some shared.session.lastHeartbeat := by
    rw [Server.heartbeat, session_eq stored]
    rfl
  rw [cleanup_removes_iff flags.owned visits counted member,
    entryExpired_heartbeat, connects_of_run run, beats]
  simp

theorem sparesActive_iff (run : serverSystem.Execution {} earlier server)
    (step : server.step label = some after) :
    SparesActive earlier server label ↔ OutlivesReceipts earlier label := by
  cases label with
  | cleanup order readings =>
      apply forall₂_congr
      intro visited member
      have removes := sweep_removes_iff run step member
      dsimp only
      rw [removes]
      constructor
      · intro spares removed received isReceived
        exact spares removed received (List.mem_append_right _ isReceived)
      · intro outlives removed time isActive
        rcases List.mem_append.mp isActive with connected | received
        · exact removed time connected
        · exact outlives removed time received
  | _ => exact Iff.rfl

/-- Activity keeps sessions alive just in the runs whose sweeps come within
half an hour of a connection, or more than half an hour after all receipts. -/
theorem activity_kept_iff (run : serverSystem.Execution {} history last) :
    ActivityKept history ↔
      ∀ index (within : index < history.length),
        OutlivesReceipts (history.take index) history[index].2 := by
  apply forall₂_congr
  intro index within
  have splits : history = history.take index ++
      history[index] :: history.drop (index + 1) := by
    rw [← List.drop_eq_getElem_cons within, List.take_append_drop]
  obtain ⟨before, after, step⟩ := run.split splits
  exact sparesActive_iff before step

def clientSends : List Label :=
  clientConnects ++ [.endBatch 0, .submit 0, .tick (20 * 60 * 1000000000),
    .complete 0 1 (.received [1]), .wake 0, .dispatch 0 ""]

theorem early_sweep_keeps_active :
    ∃ last, TransitionSystem.runLabels Server.step {}
        (clientSends ++ [.cleanup [⟨"first", 0⟩]
          [GameSession.defaultTimeout]]) = some last ∧
      ActivityKept (TransitionSystem.traceLabels Server.step {}
        (clientSends ++ [.cleanup [⟨"first", 0⟩]
          [GameSession.defaultTimeout]])) := by
  have run : (TransitionSystem.runLabels Server.step {}
      (clientSends ++ [.cleanup [⟨"first", 0⟩]
        [GameSession.defaultTimeout]])).isSome := by decide +kernel
  obtain ⟨last, run⟩ := Option.isSome_iff_exists.mp run
  refine ⟨last, run, (activity_kept_iff (.runLabels run)).mpr ?_⟩
  decide +kernel

/-- Ten minutes after its last byte, the client is removed. -/
theorem active_client_swept :
    ∃ last, TransitionSystem.runLabels Server.step {}
        (clientSends ++ [.cleanup [⟨"first", 0⟩]
          [GameSession.defaultTimeout + 1]]) = some last ∧
      ¬ ActivityKept (TransitionSystem.traceLabels Server.step {}
        (clientSends ++ [.cleanup [⟨"first", 0⟩]
          [GameSession.defaultTimeout + 1]])) := by
  have run : (TransitionSystem.runLabels Server.step {}
      (clientSends ++ [.cleanup [⟨"first", 0⟩]
        [GameSession.defaultTimeout + 1]])).isSome := by decide +kernel
  obtain ⟨last, run⟩ := Option.isSome_iff_exists.mp run
  refine ⟨last, run, ?_⟩
  decide +kernel

end CoUring
