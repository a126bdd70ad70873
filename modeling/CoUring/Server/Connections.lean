import CoUring.Server.SessionSteps

namespace CoUring

open Foundation Server SessionManager

variable {server before after last : Server} {worker : WorkerId}
  {history : List (Server × Label)} {rawFd : RawFd}
  {session : SessionPtr} {sessionId generated : SessionId} {label : Label}

/-! From accept completions to sessions. -/

def connections (history : List (Server × Label)) :
    List (RawFd × SessionId) :=
  history.filterMap fun taken => taken.1.connection taken.2

def Server.clients (server : Server) :
    List (Option (Option File × SessionId)) :=
  (List.range server.manager.objects.next).map fun session =>
    (server.session session).map fun contents =>
      (contents.client, contents.sessionId)

/-- One accepted descriptor becomes the client of one new session, whose
`HandleSession` the same worker has run up to its first `recv`. -/
structure Admitted (before : Server) (worker : WorkerId) (rawFd : RawFd)
    (generated : SessionId) (after : Server) : Prop where
  made : after.manager.objects.next = before.manager.objects.next + 1
  session : after.session before.manager.objects.next =
    some ⟨some (.adopt rawFd), generated, before.clock, true⟩
  kept : ∀ session contents, before.session session = some contents →
    after.session session = some contents
  absent : before.manager.getSession generated = none
  registered : after.manager.getSession generated =
    some before.manager.objects.next
  entries : ∀ other, other ≠ generated →
    after.manager.getSession other = before.manager.getSession other
  handled : ∃ frame awaiter, after.frames.cell frame = some ⟨worker,
    .handleSession before.manager.objects.next generated awaiter⟩

/-- Every accepted descriptor has its session, and there are no others. -/
structure NoConnectionLost (history : List (Server × Label))
    (last : Server) : Prop where
  clients : last.clients = (connections history).map fun connection =>
    some (some (.adopt connection.1), connection.2)
  admitted : ∀ taken ∈ history, ∀ rawFd generated,
    taken.1.connection taken.2 = some (rawFd, generated) →
    ∃ worker after, taken.2 = .dispatch worker generated ∧
      taken.1.step taken.2 = some after ∧
      Admitted taken.1 worker rawFd generated after
  refused : ∀ taken ∈ history, taken.1.connection taken.2 = none →
    ∃ after, taken.1.step taken.2 = some after ∧
      after.manager.objects.next = taken.1.manager.objects.next

theorem Server.clients_eq
    (next : after.manager.objects.next = before.manager.objects.next)
    (kept : ∀ session contents, before.session session = some contents →
      ∃ contents', after.session session = some contents' ∧
        contents'.client = contents.client ∧
        contents'.sessionId = contents.sessionId)
    (sessions : SessionsKept before) : after.clients = before.clients := by
  rw [Server.clients, Server.clients, next]
  refine List.map_congr_left fun session member => ?_
  obtain ⟨contents, -, found, -⟩ := sessions.found (List.mem_range.mp member)
  obtain ⟨contents', found', client, sameId⟩ := kept session contents found
  rw [found, found', Option.map_some, Option.map_some, client, sameId]

theorem SessionStep.refused (stepped : SessionStep before label after)
    (sessions : SessionsKept before)
    (none : before.connection label = none) :
    after.manager.objects.next = before.manager.objects.next ∧
      after.clients = before.clients := by
  cases stepped with
  | unchanged _ sweepless manager handles =>
      rw [Server.clients, Server.clients, session_congr manager, manager]
      exact ⟨rfl, rfl⟩
  | connected dispatches connection manager cells =>
      rw [none] at connection
      cases connection
  | ended _ sweepless handled manager handles =>
      have next : after.manager.objects.next =
          before.manager.objects.next := by
        rw [manager, left_next]
      refine ⟨next, clients_eq next (fun session contents found => ?_)
        sessions⟩
      refine ⟨_, sessions.left handled manager found, ?_⟩
      split
      · exact ⟨rfl, rfl⟩
      · exact ⟨rfl, rfl⟩
  | swept cleanup visits counted manager frames =>
      have next : after.manager.objects.next =
          before.manager.objects.next := by
        rw [manager, cleanupExpiredSessions_next]
      exact ⟨next, clients_eq next (fun session contents found =>
        ⟨contents, sessions.swept manager found, rfl, rfl⟩) sessions⟩

theorem SessionStep.admitted (stepped : SessionStep before label after)
    (sessions : SessionsKept before)
    (connection : before.connection label = some (rawFd, generated))
    (absent : before.manager.getSession generated = none) :
    ∃ worker, label = .dispatch worker generated ∧
      Admitted before worker rawFd generated after := by
  cases stepped with
  | unchanged none sweepless manager handles =>
      rw [none] at connection
      cases connection
  | @connected worker generated' rawFd' dispatches connection' manager cells =>
      obtain ⟨rfl, rfl⟩ := Prod.mk.inj
        (Option.some.inj (connection'.symm.trans connection))
      obtain ⟨new, old⟩ := sessions.joined manager
      refine ⟨worker, dispatches, ⟨?_, new, old, absent, ?_, ?_, ?_⟩⟩
      · rw [manager, connectSession_next sessions.made]
      · rw [getSession, manager, connectSession_lookup, if_pos rfl]
      · intro other different
        rw [getSession, manager, connectSession_lookup, if_neg different]
        rfl
      · rw [cells]
        exact ⟨_, _, connectedCells_handler _⟩
  | ended none sweepless handled manager handles =>
      rw [none] at connection
      cases connection
  | swept cleanup visits counted manager frames =>
      rw [cleanup] at connection
      cases connection

theorem Admitted.clients (admitted : Admitted before worker rawFd generated
    after) (sessions : SessionsKept before) :
    after.clients =
      before.clients ++ [some (some (.adopt rawFd), generated)] := by
  rw [Server.clients, admitted.made, List.range_succ, List.map_append,
    List.map_singleton, admitted.session]
  refine congrArg (· ++ _) (List.map_congr_left fun session member => ?_)
  obtain ⟨contents, -, found, -⟩ := sessions.found (List.mem_range.mp member)
  rw [found, admitted.kept session contents found]

theorem SessionFlags.mem_clients (flags : SessionFlags server)
    (entry : server.manager.getSession sessionId = some session) :
    ∃ client, some (client, sessionId) ∈ server.clients := by
  obtain ⟨shared, stored, -, rfl⟩ := flags.owned sessionId session entry
  refine ⟨shared.session.client, List.mem_map.mpr
    ⟨session, List.mem_range.mpr (Heap.lt_next stored), ?_⟩⟩
  rw [session_eq stored, Option.map_some]

theorem connections_snoc : connections (history ++ [(before, label)]) =
    connections history ++ (before.connection label).toList := by
  rw [connections, List.filterMap_append]
  rfl

theorem SessionFlags.absent (flags : SessionFlags server)
    (clients : server.clients = (connections history).map fun connection =>
      some (some (.adopt connection.1), connection.2))
    (distinct : ((connections history).map Prod.snd ++ [generated]).Nodup) :
    server.manager.getSession generated = none := by
  by_contra present
  obtain ⟨session, entry⟩ := Option.ne_none_iff_exists'.mp present
  obtain ⟨client, member⟩ := flags.mem_clients entry
  rw [clients] at member
  obtain ⟨earlier, isEarlier, same⟩ := List.mem_map.mp member
  cases same
  exact List.disjoint_of_nodup_append distinct
    (List.mem_map_of_mem isEarlier) (.head _)

/-- No connection is lost or duplicated between accept and session, as long as
no id is generated twice. -/
theorem no_connection_lost
    (run : serverSystem.Execution {} history last)
    (distinct : ((connections history).map Prod.snd).Nodup) :
    NoConnectionLost history last := by
  induction run with
  | refl => exact ⟨rfl, nofun, nofun⟩
  | @snoc last next history label run step induction =>
      have reachable := run.reachable rfl
      have sessions := sessionsKept_of_reachable reachable
      have stepped : SessionStep last label next := .of_step reachable step
      rw [connections_snoc, List.map_append] at distinct
      have kept := induction distinct.of_append_left
      cases connected : last.connection label with
      | none =>
          obtain ⟨noneMade, clients⟩ := stepped.refused sessions connected
          refine ⟨?_, List.forall_mem_append.mpr ⟨kept.admitted, ?_⟩,
            List.forall_mem_append.mpr ⟨kept.refused, ?_⟩⟩
          · rw [clients, kept.clients, connections_snoc, connected]
            simp
          · refine List.forall_mem_singleton.mpr
              fun rawFd generated connection => ?_
            cases connected.symm.trans connection
          · exact List.forall_mem_singleton.mpr
              fun _ => ⟨next, step, noneMade⟩
      | some connection =>
          obtain ⟨rawFd, generated⟩ := connection
          rw [connected] at distinct
          have absent := (sessionFlags_of_reachable reachable).absent
            kept.clients distinct
          obtain ⟨worker, dispatches, admitted⟩ :=
            stepped.admitted sessions connected absent
          refine ⟨?_, List.forall_mem_append.mpr ⟨kept.admitted, ?_⟩,
            List.forall_mem_append.mpr ⟨kept.refused, ?_⟩⟩
          · rw [admitted.clients sessions, kept.clients, connections_snoc,
              connected]
            simp
          · refine List.forall_mem_singleton.mpr
              fun rawFd' generated' connection => ?_
            cases connected.symm.trans connection
            exact ⟨worker, next, dispatches, step, admitted⟩
          · refine List.forall_mem_singleton.mpr fun none => ?_
            cases connected.symm.trans none

/-- Three accept completions in one batch, one of them an error. -/
def threeAccepts : List Label :=
  [.start 0 ⟨0, none, 0, some 3, 0⟩, .submit 0,
    .complete 0 0 (.accepted 7 true), .complete 0 0 (.accepted (-24) true),
    .complete 0 0 (.accepted 8 true), .wake 0, .dispatch 0 "first",
    .dispatch 0 "unused", .dispatch 0 "second"]

theorem three_accepts_two_connections :
    ∃ last, TransitionSystem.runLabels Server.step {} threeAccepts =
        some last ∧
      last.clients = [some (some (.adopt 7), "first"),
        some (some (.adopt 8), "second")] ∧
      NoConnectionLost
        (TransitionSystem.traceLabels Server.step {} threeAccepts) last := by
  have run : ∃ last, TransitionSystem.runLabels Server.step {}
      threeAccepts = some last ∧
      last.clients = [some (some (.adopt 7), "first"),
        some (some (.adopt 8), "second")] := ⟨_, rfl, rfl⟩
  obtain ⟨last, run, clients⟩ := run
  exact ⟨last, run, clients,
    no_connection_lost (.runLabels run) (by decide +kernel)⟩

end CoUring
