import CoUring.Server.Sends

namespace CoUring

open Foundation Server

variable {server : Server} {worker : WorkerId} {session : SessionPtr}

/-! One call of `OnRecvData`. -/

theorem Server.isConnected_iff : server.isConnected session = true ↔
    ∃ contents client, server.session session = some contents ∧
      contents.client = some client ∧ contents.connected = true := by
  simp only [isConnected, Option.any_eq_true, Bool.and_eq_true,
    Option.isSome_iff_exists]
  constructor
  · rintro ⟨contents, found, connected, client, has⟩
    exact ⟨contents, client, found, has, connected⟩
  · rintro ⟨contents, client, found, has, connected⟩
    exact ⟨contents, found, connected, client, has⟩

theorem Server.session_modified {contents : GameSession}
    (found : server.session session = some contents)
    (change : GameSession → GameSession) :
    (server.setManager
      (server.manager.modifySession session change)).session session =
        some (change contents) := by
  obtain ⟨shared, stored, rfl⟩ := Option.map_eq_some_iff.mp found
  rw [Server.session, setManager_manager, SessionManager.modifySession_cell,
    if_pos rfl, stored]
  rfl

theorem Server.sendData_eq {contents : GameSession} {client : File}
    (found : server.session session = some contents)
    (has : contents.client = some client)
    (connected : contents.connected = true) (storage : Nat) :
    server.sendData worker session storage =
      let buf : Span :=
        ⟨storage, ((server.vectors.cell storage).getD []).length⟩
      ((server.allocateFrame.setIoUring worker
        ((server.workers worker).ioUring.queueRequest
          ⟨.send buf, client.getRawFd,
            .sendAwaiter server.frames.next⟩)).suspendAt worker
              server.frames.next (.sendData session
                { client.send buf with
                  sqeData := { coroutine := some server.frames.next } }),
        server.frames.next) := by
  have found' : server.allocateFrame.session session = some contents := found
  simp only [sendData, found', has, connected]
  rfl

/-- What a call leaves behind: a request that points at a vector which is
gone. -/
structure Handed (before after : Server) (worker : WorkerId)
    (payload : List UInt8) : Prop where
  vectors : after.vectors.cell = before.vectors.cell
  nextVector : after.vectors.next = before.vectors.next + 1
  next : before.frames.next < after.frames.next
  workers : ∃ rawFd, after.workers = (before.setIoUring worker
    ((before.workers worker).ioUring.queueRequest
      ⟨.send ⟨before.vectors.next, payload.length⟩, rawFd,
        .sendAwaiter before.frames.next⟩)).workers
  manager : SessionManager.Lasting (fun _ => True) before.manager
    after.manager
  older : ∀ frame contents, before.frames.cell frame = some contents →
    after.frames.cell frame = some contents
  newer : ∀ frame contents, after.frames.cell frame = some contents →
    before.frames.cell frame = some contents ∨
      contents.point.sharedSession = none
  healthy : after.faulted = before.faulted

theorem Server.onRecvData_handed
    (connected : server.isConnected session = true) (payload : List UInt8) :
    Handed server (server.onRecvData worker session payload) worker
      payload := by
  obtain ⟨contents, client, found, has, isConnected⟩ :=
    isConnected_iff.mp connected
  let touched := (server.setManager
    (server.manager.modifySession session fun contents =>
      contents.updateHeartbeat server.clock)).setVectors
    (server.vectors.put server.vectors.next payload)
  have found' : touched.session session =
      some (contents.updateHeartbeat server.clock) :=
    session_modified found _
  have sent := @sendData_eq touched worker session _ client found' has
    isConnected server.vectors.next
  have size : ((touched.vectors.cell server.vectors.next).getD []).length =
      payload.length := by
    change (((server.vectors.put _ _).cell _).getD []).length = _
    rw [Heap.cell_put_self]
    rfl
  rw [size] at sent
  have handed : server.onRecvData worker session payload =
      ((touched.sendData worker session server.vectors.next).1.spawn worker
        (touched.sendData worker session server.vectors.next).2).setVectors
        (((touched.sendData worker session server.vectors.next).1.spawn worker
          (touched.sendData worker session
            server.vectors.next).2).vectors.free server.vectors.next) := rfl
  rw [handed, sent]
  dsimp only
  rw [spawn_eq (suspendAt_self _)]
  refine ⟨?_, ?_, ?_, ⟨client.getRawFd, rfl⟩, ?_, ?_, ?_, rfl⟩
  · change Function.update (Function.update server.vectors.cell _ _) _ none = _
    rw [Function.update_idem, Function.update_eq_self_iff]
    exact (Heap.cell_next _).symm
  · exact Nat.max_eq_right (Nat.le_succ _)
  · change server.frames.next < max (max (server.frames.next + 1) _ + 1) _
    omega
  · exact SessionManager.modifySession_lasting
      (·.updateHeartbeat server.clock) fun _ => rfl
  · intro frame stored old
    have below := Heap.lt_next old
    refine (suspendAt_other _ (Nat.ne_of_lt ?_)).trans
      ((suspendAt_other _ (Nat.ne_of_lt below)).trans old)
    exact Nat.lt_of_lt_of_le (Nat.lt_succ_of_lt below) (Nat.le_max_left _ _)
  · intro frame stored new
    rcases suspendAt_cases new with ⟨-, rfl⟩ | ⟨-, earlier⟩
    · exact .inr rfl
    · rcases suspendAt_cases earlier with ⟨-, rfl⟩ | ⟨-, old⟩
      · exact .inr rfl
      · exact .inl old

theorem Handed.held {before after : Server} {payload : List UInt8}
    (handed : Handed before after worker payload)
    (sessions : SessionsHeld True before) : SessionsHeld True after := by
  have handler : ∀ frame thread session sessionId awaiter,
      after.frames.cell frame =
        some ⟨thread, .handleSession session sessionId awaiter⟩ →
      before.frames.cell frame =
        some ⟨thread, .handleSession session sessionId awaiter⟩ := by
    intro frame thread session sessionId awaiter stored
    rcases handed.newer frame _ stored with old | none
    · exact old
    · cases none
  refine ⟨handed.healthy.trans sessions.healthy,
    handed.manager.entriesMade sessions.made, ?_, ?_, ?_, ?_⟩
  · intro session below
    rw [handed.manager.next] at below
    obtain ⟨frame, thread, sessionId, callee, shared, stored, object, owns,
      rawFd, client⟩ := sessions.held session below
    obtain ⟨shared', object', owns', same⟩ :=
      handed.manager.owned session shared frame trivial object owns
    exact ⟨frame, thread, sessionId, callee, shared', handed.older _ _ stored,
      object', owns', rawFd, same.trans client⟩
  · intro frame thread session sessionId awaiter stored
    rw [handed.manager.next]
    exact sessions.handled _ _ _ _ _ (handler _ _ _ _ _ stored)
  · intro frame frame' thread thread' session sessionId sessionId' awaiter
      awaiter' stored stored'
    exact sessions.single _ _ _ _ _ _ _ _ _ (handler _ _ _ _ _ stored)
      (handler _ _ _ _ _ stored')
  · exact fun _ _ _ _ _ => trivial

/-! What a call adds to the rings. -/

theorem Handed.requested {before after : Server} {payload : List UInt8}
    (handed : Handed before after worker payload) {other : WorkerId}
    {request : Request}
    (requested : (after.workers other).ioUring.Requested request) :
    (before.workers other).ioUring.Requested request ∨
      other = worker ∧
        request.operation =
          .send ⟨before.vectors.next, payload.length⟩ ∧
        request.userData = .sendAwaiter before.frames.next := by
  obtain ⟨rawFd, workers⟩ := handed.workers
  rw [workers] at requested
  refine setWorker_forall worker _
    (fun other contents => ∀ request, contents.ioUring.Requested request →
      (before.workers other).ioUring.Requested request ∨ other = worker ∧
        request.operation = .send ⟨before.vectors.next, payload.length⟩ ∧
        request.userData = .sendAwaiter before.frames.next)
    ?_ (fun _ _ earlier => .inl earlier) other request requested
  intro request requested
  rcases IoUring.requested_queueRequest requested with earlier | rfl
  · exact .inl earlier
  · exact .inr ⟨rfl, rfl, rfl⟩

theorem Handed.completions {before after : Server} {payload : List UInt8}
    (handed : Handed before after worker payload) (other : WorkerId) :
    (after.workers other).ioUring.cq = (before.workers other).ioUring.cq := by
  obtain ⟨rawFd, workers⟩ := handed.workers
  rw [workers]
  exact setWorker_forall worker _
    (fun other contents => contents.ioUring.cq =
      (before.workers other).ioUring.cq)
    (IoUring.queueRequest_cq _ _) (fun _ => rfl) other

/-! What an executed send leaves in them. -/

theorem Server.requested_sent {index : Nat} {res : Int} {frame : FrameId}
    {other : WorkerId} {request : Request}
    (requested : ((server.setWorker worker ((server.workers worker).sent index
      frame res)).workers other).ioUring.Requested request) :
    (server.workers other).ioUring.Requested request :=
  setWorker_forall worker ((server.workers worker).sent index frame res)
    (fun other contents => ∀ request, contents.ioUring.Requested request →
      (server.workers other).ioUring.Requested request)
    (fun _ requested => requested.imp_right (List.eraseIdx_subset ·))
    (fun _ _ requested => requested) other request requested

theorem Server.completion_sent {index : Nat} {res : Int} {frame : FrameId}
    {other : WorkerId} {cqe : Cqe}
    (member : cqe ∈ ((server.setWorker worker ((server.workers worker).sent
      index frame res)).workers other).ioUring.cq) :
    cqe ∈ (server.workers other).ioUring.cq ∨
      cqe = ⟨some (.sendAwaiter frame), res, 0⟩ :=
  setWorker_forall worker ((server.workers worker).sent index frame res)
    (fun other contents => ∀ cqe ∈ contents.ioUring.cq,
      cqe ∈ (server.workers other).ioUring.cq ∨
        cqe = ⟨some (.sendAwaiter frame), res, 0⟩)
    (fun _ member => (List.mem_append.mp member).imp_right
      List.mem_singleton.mp) (fun _ _ member => .inl member) other cqe member

/-- What completed is requested no more, by no worker. -/
theorem RingsMatch.completed_alone (matched : RingsMatch server) {cqe : Cqe}
    {frame : FrameId} (member : cqe ∈ (server.workers worker).ioUring.cq)
    (carries : cqe.userData = some (.sendAwaiter frame)) (other : WorkerId)
    {request : Request}
    (requested : (server.workers other).ioUring.Requested request) :
    request.userData ≠ .sendAwaiter frame := by
  intro same
  obtain ⟨resumed, awaits⟩ := matched.awaited worker _
    (IoUring.outstanding_of_completed member carries)
  obtain ⟨resumed', awaits'⟩ := matched.awaited other _ requested.outstanding
  rw [same] at awaits'
  obtain rfl := awaits.frame_eq rfl
  obtain rfl := awaits'.frame_eq rfl
  obtain ⟨rfl, -⟩ := awaits.unique awaits'
  have once := (matched.kept other).once
  rw [IoUring.outstanding, List.filter_append] at once
  refine (List.nodup_append.mp once).2.2 (.sendAwaiter frame) ?_
    (.sendAwaiter frame) ?_ rfl
  · rw [List.mem_filter, List.mem_append, List.mem_map, List.mem_map]
    refine ⟨?_, rfl⟩
    exact requested.imp (fun queued => ⟨request, queued, same⟩)
      fun inflight => ⟨request, inflight, same⟩
  · rw [List.mem_filter, List.mem_filterMap]
    exact ⟨⟨cqe, member, carries⟩, rfl⟩

/-! The calls, their requests, and what the kernel made of them. -/

structure CallsTracked (echo : EchoServer) : Prop where
  /-- No vector outlives its `OnRecvData`. -/
  freed : ∀ storage, echo.server.vectors.cell storage = none
  frames : ∀ call ∈ echo.calls, call.frame < echo.server.frames.next
  distinct : (echo.calls.map EchoCall.frame).Nodup
  requested : ∀ worker request buf, request.operation = .send buf →
    (echo.server.workers worker).ioUring.Requested request →
    ∃ call ∈ echo.calls, call.worker = worker ∧
      request.userData = .sendAwaiter call.frame ∧
      buf = ⟨call.storage, call.payload.length⟩
  completed : ∀ worker cqe frame,
    cqe ∈ (echo.server.workers worker).ioUring.cq →
    cqe.userData = some (.sendAwaiter frame) →
    ∃ send ∈ echo.executed, send.frame = frame ∧ send.res = cqe.res
  executed : ∀ send ∈ echo.executed, ∃ call ∈ echo.calls,
    call.frame = send.frame ∧
      send.read.length = call.payload.length ∧
      send.res ≤ call.payload.length
  /-- Each request is executed once. -/
  once : (echo.executed.map ExecutedSend.frame).Nodup
  gone : ∀ send ∈ echo.executed, ∀ worker request buf,
    request.operation = .send buf →
    (echo.server.workers worker).ioUring.Requested request →
    request.userData ≠ .sendAwaiter send.frame
  ended : ∀ ending ∈ echo.ended, ∃ send ∈ echo.executed,
    send.frame = ending.1

namespace CallsTracked

variable {echo : EchoServer}

theorem same_call (tracked : CallsTracked echo) {call other : EchoCall}
    (member : call ∈ echo.calls) (member' : other ∈ echo.calls)
    (frame : call.frame = other.frame) : call = other :=
  List.inj_on_of_nodup_map tracked.distinct member member' frame

theorem executed_lt (tracked : CallsTracked echo) {send : ExecutedSend}
    (member : send ∈ echo.executed) :
    send.frame < echo.server.frames.next := by
  obtain ⟨call, isCall, same, -⟩ := tracked.executed send member
  rw [← same]
  exact tracked.frames call isCall

theorem executable_call (tracked : CallsTracked echo) {index : Nat} {res : Int}
    {buf : Span} {frame : FrameId}
    (executable : Executable echo.server worker index res buf frame) :
    ∃ call ∈ echo.calls, call.worker = worker ∧ frame = call.frame ∧
      buf = ⟨call.storage, call.payload.length⟩ ∧
      .sendAwaiter frame ∈ echo.server.outstanding worker ∧
      ∀ send ∈ echo.executed, send.frame ≠ frame := by
  obtain ⟨rawFd, found⟩ := executable.inflight
  have inflight : (echo.server.workers worker).ioUring.Requested
      ⟨.send buf, rawFd, .sendAwaiter frame⟩ :=
    .inr (List.mem_of_getElem? found)
  obtain ⟨call, isCall, onWorker, carries, points⟩ :=
    tracked.requested worker _ buf rfl inflight
  refine ⟨call, isCall, onWorker, SqeAddr.sendAwaiter.inj carries, points,
    inflight.outstanding, fun send member same => ?_⟩
  exact tracked.gone send member worker _ buf rfl inflight
    (congrArg _ same.symm)

theorem nextEnding_cases {ending : FrameId × SendEnding}
    (ends : server.nextEnding worker = some ending) :
    ∃ cqe rest thread session awaiter,
      (server.workers worker).ioUring.cq = cqe :: rest ∧
      cqe.userData = some (.sendAwaiter ending.1) ∧
      server.frames.cell ending.1 = some ⟨thread, .sendData session awaiter⟩ ∧
      ending.2 = sendEnding (awaiter.store cqe.res cqe.flags) := by
  obtain ⟨cqe, isHead, ends⟩ := Option.bind_eq_some_iff.mp ends
  obtain ⟨rest, next⟩ := List.head?_eq_some_iff.mp isHead
  split at ends
  next frame carries =>
    split at ends
    next thread session awaiter stored =>
      cases ends
      exact ⟨cqe, rest, thread, session, awaiter, next, carries, stored, rfl⟩
    next other => cases ends
  next other => cases ends

theorem silently (tracked : CallsTracked echo) {label : Label} {after : Server}
    (silent : Silent echo.server after) :
    CallsTracked { echo with
      server := after
      ended := echo.ended ++ echo.server.endings label } where
  freed := by
    rw [silent.vectors]
    exact tracked.freed
  frames := fun call member =>
    Nat.lt_of_lt_of_le (tracked.frames call member) silent.next
  distinct := tracked.distinct
  requested := fun worker request buf isSend requested =>
    tracked.requested worker request buf isSend
      ((silent.rings worker).requests request buf isSend requested)
  completed := fun worker cqe frame member carries =>
    tracked.completed worker cqe frame
      ((silent.rings worker).completions cqe frame carries member) carries
  executed := tracked.executed
  once := tracked.once
  gone := fun send member worker request buf isSend requested =>
    tracked.gone send member worker request buf isSend
      ((silent.rings worker).requests request buf isSend requested)
  ended := fun ending member => by
    rcases List.mem_append.mp member with earlier | added
    · exact tracked.ended ending earlier
    · cases label with
      | dispatch worker generated =>
          have ends := Option.mem_toList.mp added
          obtain ⟨cqe, rest, thread, session, awaiter, next, carries, -⟩ :=
            nextEnding_cases ends
          obtain ⟨send, isSend, frame, -⟩ :=
            tracked.completed worker cqe ending.1 (by simp [next]) carries
          exact ⟨send, isSend, frame⟩
      | _ => cases added

theorem onRecvData (tracked : CallsTracked echo) {after : Server}
    {payload : List UInt8}
    (handed : Handed echo.server after worker payload) :
    CallsTracked { echo with
      server := after
      calls := echo.calls ++ [⟨worker, session, payload,
        echo.server.vectors.next, echo.server.frames.next⟩] } := by
  refine ⟨?_, ?_, ?_, ?_, ?_, ?_, tracked.once, ?_, tracked.ended⟩
  · rw [handed.vectors]
    exact tracked.freed
  · intro call member
    rcases List.mem_append.mp member with earlier | added
    · exact (tracked.frames call earlier).trans handed.next
    · rw [List.mem_singleton.mp added]
      exact handed.next
  · rw [List.map_append, List.map_singleton, ← List.concat_eq_append]
    refine tracked.distinct.concat fun member => ?_
    obtain ⟨call, isCall, same⟩ := List.mem_map.mp member
    exact absurd (tracked.frames call isCall) (same ▸ Nat.lt_irrefl _)
  · intro other request buf isSend requested
    rcases handed.requested requested with earlier | ⟨rfl, sends, carries⟩
    · obtain ⟨call, isCall, rest⟩ :=
        tracked.requested other request buf isSend earlier
      exact ⟨call, List.mem_append_left _ isCall, rest⟩
    · exact ⟨_, List.mem_append_right _ (List.mem_singleton_self _), rfl,
        carries, (Operation.send.inj (sends.symm.trans isSend)).symm⟩
  · intro other cqe frame member carries
    rw [handed.completions] at member
    exact tracked.completed other cqe frame member carries
  · intro send member
    obtain ⟨call, isCall, rest⟩ := tracked.executed send member
    exact ⟨call, List.mem_append_left _ isCall, rest⟩
  · intro send member other request buf isSend requested
    rcases handed.requested requested with earlier | ⟨rfl, -, carries⟩
    · exact tracked.gone send member other request buf isSend earlier
    · intro same
      have below := tracked.executed_lt member
      rw [← SqeAddr.sendAwaiter.inj (carries.symm.trans same)] at below
      exact Nat.lt_irrefl _ below

theorem executeSend (tracked : CallsTracked echo) {index : Nat} {res : Int}
    {read : List UInt8} {buf : Span} {frame : FrameId}
    (matched : RingsMatch (echo.server.setWorker worker
      ((echo.server.workers worker).sent index frame res)))
    (executable : Executable echo.server worker index res buf frame)
    (reads : echo.server.mayRead buf read = true) :
    CallsTracked { echo with
      server := echo.server.setWorker worker
        ((echo.server.workers worker).sent index frame res)
      executed := echo.executed ++ [⟨frame, read, res⟩] } := by
  obtain ⟨call, isCall, -, rfl, rfl, -, new⟩ :=
    tracked.executable_call executable
  refine ⟨tracked.freed, tracked.frames, tracked.distinct, ?_, ?_, ?_, ?_, ?_,
    ?_⟩
  · intro other request buf isSend requested
    exact tracked.requested other request buf isSend
      (requested_sent requested)
  · intro other cqe frame member carries
    rcases completion_sent member with earlier | rfl
    · obtain ⟨send, isSend, rest⟩ :=
        tracked.completed other cqe frame earlier carries
      exact ⟨send, List.mem_append_left _ isSend, rest⟩
    · cases carries
      exact ⟨_, List.mem_append_right _ (List.mem_singleton_self _), rfl, rfl⟩
  · intro send member
    rcases List.mem_append.mp member with earlier | added
    · exact tracked.executed send earlier
    · rw [List.mem_singleton.mp added]
      refine ⟨call, isCall, rfl, ?_, executable.bounded⟩
      rw [Server.mayRead, tracked.freed] at reads
      exact of_decide_eq_true reads
  · rw [List.map_append, List.map_singleton, ← List.concat_eq_append]
    refine tracked.once.concat fun member => ?_
    obtain ⟨send, isSend, same⟩ := List.mem_map.mp member
    exact new send isSend same
  · intro send member other request buf isSend requested
    rcases List.mem_append.mp member with earlier | added
    · exact tracked.gone send earlier other request buf isSend
        (requested_sent requested)
    · rw [List.mem_singleton.mp added]
      have posted : (⟨some (.sendAwaiter call.frame), res, 0⟩ : Cqe) ∈
          ((echo.server.setWorker worker
            ((echo.server.workers worker).sent index call.frame
              res)).workers worker).ioUring.cq := by
        rw [setWorker_self]
        exact List.mem_append_right _ (List.mem_singleton_self _)
      exact matched.completed_alone posted rfl other requested
  · intro ending member
    obtain ⟨send, isSend, frame⟩ := tracked.ended ending member
    exact ⟨send, List.mem_append_left _ isSend, frame⟩

theorem step (tracked : CallsTracked echo) (matched : RingsMatch echo.server)
    {label : EchoLabel} {next : EchoServer}
    (stepped : EchoStepped echo label next) : CallsTracked next := by
  have matched' := stepped.matched matched
  cases stepped with
  | server silent stepped =>
      exact tracked.silently (stepped.silent matched silent)
  | onRecvData dispatching connected =>
      exact tracked.onRecvData (onRecvData_handed connected _)
  | executeSend executable reads stepped =>
      exact tracked.executeSend matched' executable reads

theorem of_reachable (reachable : echoSystem.Reachable echo) :
    CallsTracked echo := by
  refine TransitionSystem.Invariant.of_reachable CallsTracked ?_ ?_ _
    reachable
  · rintro _ rfl
    refine ⟨fun _ => rfl, nofun, List.nodup_nil, ?_, ?_, nofun, List.nodup_nil,
      nofun, nofun⟩
    · rintro worker request buf - (queued | inflight)
      · cases queued
      · cases inflight
    · intro worker cqe frame member
      cases member
  · intro before label after reached tracked step
    exact tracked.step (echo_ringsMatch reached) (EchoServer.step_cases step)

end CallsTracked

theorem echo_sessionsHeld {echo : EchoServer}
    (reachable : echoSystem.Reachable echo) :
    SessionsHeld True echo.server := by
  refine TransitionSystem.Invariant.of_reachable
    (fun echo => SessionsHeld True echo.server) ?_ ?_ _ reachable
  · intro echo start
    cases start
    exact sessionsHeld_initial
  · intro before label after reached sessions step
    have matched := echo_ringsMatch reached
    cases EchoServer.step_cases step with
    | server silent stepped => exact sessions.step matched stepped
    | onRecvData dispatching connected =>
        exact (onRecvData_handed connected _).held sessions
    | executeSend executable reads stepped =>
        exact sessions.step matched stepped

end CoUring
