import CoUring.Server.EchoStorage

namespace CoUring

open Foundation Server

variable {echo next first last : EchoServer} {label : EchoLabel}
  {history : List (EchoServer × EchoLabel)}
  {property : EchoCall → ExecutedSend → Prop}

/-! What the client receives, in environments that treat every send alike. -/

/-- The kernel executes sends only as a property says. -/
def SendsAs (property : EchoCall → ExecutedSend → Prop)
    (echo : EchoServer) : EchoLabel → Prop
  | .executeSend worker index res read => ∀ call ∈ echo.calls,
      ((echo.server.workers worker).ioUring.inflight[index]?).map
        Request.userData = some (.sendAwaiter call.frame) →
      property call ⟨call.frame, read, res⟩
  | _ => True

instance [∀ call send, Decidable (property call send)] (echo : EchoServer)
    (label : EchoLabel) : Decidable (SendsAs property echo label) :=
  match label with
  | .executeSend worker index res read =>
      inferInstanceAs (Decidable (∀ call ∈ echo.calls,
        ((echo.server.workers worker).ioUring.inflight[index]?).map
          Request.userData = some (.sendAwaiter call.frame) →
        property call ⟨call.frame, read, res⟩))
  | .server _ => .isTrue trivial
  | .onRecvData _ _ _ => .isTrue trivial

theorem sends_as (reachable :
      (echoSystem.restrict (SendsAs property)).Reachable echo) :
    ∀ send ∈ echo.executed, ∀ call ∈ echo.calls, call.frame = send.frame →
      property call send := by
  refine TransitionSystem.Invariant.of_reachable (fun echo =>
    ∀ send ∈ echo.executed, ∀ call ∈ echo.calls, call.frame = send.frame →
      property call send) ?_ ?_ _ reachable
  · rintro _ rfl send member
    cases member
  · intro echo label next reached asSaid step
    have tracked := CallsTracked.of_reachable reached.unrestricted
    obtain ⟨allowed, step⟩ := step
    cases EchoServer.step_cases step with
    | server silent stepped => exact asSaid
    | onRecvData dispatching connected =>
        intro send isSend call member same
        rcases List.mem_append.mp member with earlier | added
        · exact asSaid send isSend call earlier same
        · rw [List.mem_singleton.mp added] at same
          exact absurd (tracked.executed_lt isSend)
            (same ▸ Nat.lt_irrefl _)
    | executeSend executable reads stepped =>
        intro send isSend call member same
        rcases List.mem_append.mp isSend with earlier | added
        · exact asSaid send earlier call member same
        · obtain rfl := List.mem_singleton.mp added
          obtain ⟨rawFd, found⟩ := executable.inflight
          dsimp only at same
          subst same
          exact allowed call member (by rw [found]; rfl)

/-! The result of `SendData`. -/

abbrev IntactSend : EchoServer → EchoLabel → Prop :=
  SendsAs fun call send => send.read = call.payload

def intactEchoSystem : TransitionSystem EchoServer EchoLabel :=
  echoSystem.restrict IntactSend

def EchoServer.acceptedBytes (echo : EchoServer) (frame : FrameId) :
    List UInt8 :=
  (echo.executed.filter fun send => send.frame = frame).flatMap
    ExecutedSend.accepted

/-- A `SendData` that finished sent its payload, or took the error path. -/
def EchoServer.SendsReported (echo : EchoServer) : Prop :=
  ∀ ending ∈ echo.ended, ∀ call ∈ echo.calls, call.frame = ending.1 →
    echo.acceptedBytes call.frame = call.payload ∨ ending.2 = .failed

def Server.nextCompletion (server : Server) : EchoLabel → Option Cqe
  | .server (.dispatch worker _) => (server.workers worker).ioUring.cq.head?
  | _ => none

/-- The result handed to a `SendData` is an error or the length of its
payload. -/
def ResultWhole (echo : EchoServer) (label : EchoLabel) : Prop :=
  ∀ cqe ∈ echo.server.nextCompletion label, ∀ call ∈ echo.calls,
    cqe.userData = some (.sendAwaiter call.frame) →
    cqe.res < 0 ∨ cqe.res = call.payload.length

instance (echo : EchoServer) (label : EchoLabel) :
    Decidable (ResultWhole echo label) :=
  inferInstanceAs (Decidable (∀ cqe ∈ echo.server.nextCompletion label,
    ∀ call ∈ echo.calls, cqe.userData = some (.sendAwaiter call.frame) →
      cqe.res < 0 ∨ cqe.res = call.payload.length))

theorem CallsTracked.acceptedBytes (tracked : CallsTracked echo)
    {send : ExecutedSend} (member : send ∈ echo.executed) :
    echo.acceptedBytes send.frame = send.accepted := by
  rw [EchoServer.acceptedBytes, filter_key_eq tracked.once member]
  exact List.append_nil _

theorem sendEnding_stored (awaiter : SendAwaiter) (res : Int) (flags : Nat) :
    sendEnding (awaiter.store res flags) = .failed ↔ res < 0 := by
  have result : (awaiter.store res flags).awaitResume = res := rfl
  rw [sendEnding, result]
  split
  next success => simpa using success
  next failure => simpa using failure

theorem accepted_whole_iff {call : EchoCall} {send : ExecutedSend}
    (read : send.read = call.payload)
    (bounded : send.res ≤ call.payload.length) :
    send.accepted = call.payload ∨ send.res < 0 ↔
      send.res < 0 ∨ send.res = call.payload.length := by
  rw [ExecutedSend.accepted, read, List.take_eq_self_iff]
  omega

theorem CallsTracked.reported_iff (tracked : CallsTracked echo)
    (intact : ∀ send ∈ echo.executed, ∀ call ∈ echo.calls,
      call.frame = send.frame → send.read = call.payload)
    {worker : WorkerId} {cqe : Cqe} {call : EchoCall}
    (isCall : call ∈ echo.calls)
    (member : cqe ∈ (echo.server.workers worker).ioUring.cq)
    (carries : cqe.userData = some (.sendAwaiter call.frame))
    (awaiter : SendAwaiter) :
    echo.acceptedBytes call.frame = call.payload ∨
        sendEnding (awaiter.store cqe.res cqe.flags) = .failed ↔
      cqe.res < 0 ∨ cqe.res = call.payload.length := by
  obtain ⟨send, isSend, frame, result⟩ :=
    tracked.completed worker cqe call.frame member carries
  obtain ⟨call', isCall', frame', -, bounded⟩ := tracked.executed send isSend
  obtain rfl := tracked.same_call isCall' isCall (frame'.trans frame)
  rw [sendEnding_stored, ← frame, tracked.acceptedBytes isSend, ← result]
  exact accepted_whole_iff (intact send isSend call' isCall frame') bounded

theorem RingsMatch.nextEnding {server : Server} (matched : RingsMatch server)
    {worker : WorkerId} {cqe : Cqe} {frame : FrameId}
    (next : cqe ∈ (server.workers worker).ioUring.cq.head?)
    (carries : cqe.userData = some (.sendAwaiter frame)) :
    ∃ awaiter : SendAwaiter, server.nextEnding worker =
      some (frame, sendEnding (awaiter.store cqe.res cqe.flags)) := by
  obtain ⟨resumed, awaits⟩ := matched.awaited worker _
    (IoUring.outstanding_of_completed (List.mem_of_head? next) carries)
  cases awaits with
  | @send _ session awaiter names suspended =>
      refine ⟨awaiter, ?_⟩
      simp [Server.nextEnding, Option.mem_def.mp next, carries, suspended]

theorem CallsTracked.reported_dispatch (tracked : CallsTracked echo)
    (matched : RingsMatch echo.server)
    (intact : ∀ send ∈ echo.executed, ∀ call ∈ echo.calls,
      call.frame = send.frame → send.read = call.payload)
    (worker : WorkerId) (generated : SessionId) :
    (∀ ending ∈ echo.server.nextEnding worker, ∀ call ∈ echo.calls,
      call.frame = ending.1 →
      echo.acceptedBytes call.frame = call.payload ∨ ending.2 = .failed) ↔
      ResultWhole echo (.server (.dispatch worker generated)) := by
  constructor
  · intro reported cqe isNext call isCall carries
    obtain ⟨awaiter, ends⟩ := matched.nextEnding isNext carries
    exact (tracked.reported_iff intact isCall (List.mem_of_head? isNext)
      carries awaiter).mp (reported _ ends call isCall rfl)
  · intro whole ending ends call isCall same
    obtain ⟨cqe, rest, thread, session, awaiter, next, carries, -, result⟩ :=
      CallsTracked.nextEnding_cases ends
    have isNext : cqe ∈ (echo.server.workers worker).ioUring.cq.head? := by
      rw [next]
      rfl
    rw [← same] at carries
    rw [result]
    exact (tracked.reported_iff intact isCall (List.mem_of_head? isNext)
      carries awaiter).mpr (whole cqe isNext call isCall carries)

theorem CallsTracked.ended_lt (tracked : CallsTracked echo)
    {ending : FrameId × SendEnding} (member : ending ∈ echo.ended) :
    ending.1 < echo.server.frames.next := by
  obtain ⟨send, isSend, frame⟩ := tracked.ended ending member
  rw [← frame]
  exact tracked.executed_lt isSend

theorem CallsTracked.ended_ne_executable (tracked : CallsTracked echo)
    {worker : WorkerId} {index : Nat} {res : Int} {buf : Span} {frame : FrameId}
    (executable : Executable echo.server worker index res buf frame)
    {ending : FrameId × SendEnding} (member : ending ∈ echo.ended) :
    ending.1 ≠ frame := by
  obtain ⟨-, -, -, -, -, -, new⟩ := tracked.executable_call executable
  obtain ⟨send, isSend, same⟩ := tracked.ended ending member
  rw [← same]
  exact new send isSend

theorem reported_step (reachable : intactEchoSystem.Reachable echo)
    (good : echo.SendsReported)
    (step : intactEchoSystem.step echo label next) :
    next.SendsReported ↔ ResultWhole echo label := by
  have tracked := CallsTracked.of_reachable reachable.unrestricted
  have matched := echo_ringsMatch reachable.unrestricted
  have intact := sends_as reachable
  cases EchoServer.step_cases step.2 with
  | @server label server silent stepped =>
      cases label with
      | dispatch worker generated =>
          rw [← tracked.reported_dispatch matched intact]
          constructor
          · intro reported ending ends
            exact reported ending
              (List.mem_append_right _ (Option.mem_toList.mpr ends))
          · intro reported ending member
            rcases List.mem_append.mp member with earlier | added
            · exact good ending earlier
            · exact reported ending (Option.mem_toList.mp added)
      | _ =>
          refine iff_of_true (fun ending member => ?_) nofun
          have earlier : ending ∈ echo.ended := by
            simpa [Server.endings] using member
          exact good ending earlier
  | onRecvData dispatching connected =>
      refine iff_of_true (fun ending member call isCall same => ?_) nofun
      rcases List.mem_append.mp isCall with earlier | added
      · exact good ending member call earlier same
      · obtain rfl := List.mem_singleton.mp added
        have below := tracked.ended_lt member
        rw [← same] at below
        exact absurd below (Nat.lt_irrefl _)
  | executeSend executable reads stepped =>
      refine iff_of_true (fun ending member call isCall same => ?_) nofun
      have different := tracked.ended_ne_executable executable member
      rw [← same] at different
      have accepted := good ending member call isCall same
      rw [EchoServer.acceptedBytes, List.filter_append,
        List.filter_cons_of_neg (by simpa using different.symm),
        List.filter_nil, List.append_nil]
      exact accepted

/-- `SendData` is right about what it sent in the runs whose results are errors
or whole lengths. -/
theorem sends_reported_iff (start : intactEchoSystem.initial first)
    (run : intactEchoSystem.Execution first history last) :
    (∀ echo ∈ TransitionSystem.visited history last, echo.SendsReported) ↔
      ∀ taken ∈ history, ResultWhole taken.1 taken.2 := by
  refine run.good_iff_guarded ?_ ?_ start
  · rintro _ rfl ending member
    cases member
  · intro echo label next reachable good step
    exact reported_step reachable good step

/-- A payload is sent with some result, and `SendData` goes on. -/
def echoed (payload : List UInt8) (res : Int) : List EchoLabel :=
  connected ++ [.onRecvData 0 0 payload, .server (.endBatch 0),
    .server (.submit 0), .executeSend 0 2 res payload, .server (.wake 0),
    .server (.dispatch 0 "second")]

theorem whole_send_reported :
    ∃ last, TransitionSystem.runLabels
        (TransitionSystem.restrictStep IntactSend EchoServer.step) {}
        (echoed [1, 2] 2) = some last ∧
      last.ended = [(5, .completed)] ∧
      ∀ echo ∈ TransitionSystem.visited (TransitionSystem.traceLabels
          (TransitionSystem.restrictStep IntactSend EchoServer.step) {}
          (echoed [1, 2] 2)) last, echo.SendsReported := by
  have run : ∃ last, TransitionSystem.runLabels
      (TransitionSystem.restrictStep IntactSend EchoServer.step) {}
      (echoed [1, 2] 2) = some last ∧
      last.ended = [(5, .completed)] := ⟨_, rfl, rfl⟩
  obtain ⟨last, run, ended⟩ := run
  refine ⟨last, run, ended,
    (sends_reported_iff rfl (.restrictLabels run)).mpr ?_⟩
  decide +kernel

/-- The kernel takes one byte of two, and `SendData` reports success. -/
theorem short_send_unreported :
    ∃ last, TransitionSystem.runLabels
        (TransitionSystem.restrictStep IntactSend EchoServer.step) {}
        (echoed [1, 2] 1) = some last ∧
      intactEchoSystem.Reachable last ∧ ¬ last.SendsReported := by
  have run : ∃ last, TransitionSystem.runLabels
      (TransitionSystem.restrictStep IntactSend EchoServer.step) {}
      (echoed [1, 2] 1) = some last ∧
      last.ended = [(5, .completed)] ∧
      last.calls = [⟨0, 0, [1, 2], 0, 5⟩] ∧
      last.acceptedBytes 5 = [1] := ⟨_, rfl, rfl, rfl, rfl⟩
  obtain ⟨last, run, ended, calls, accepted⟩ := run
  refine ⟨last, run, TransitionSystem.Execution.reachable rfl
    (.restrictLabels run), fun reported => ?_⟩
  have whole := reported (5, .completed) (by simp [ended])
    ⟨0, 0, [1, 2], 0, 5⟩ (by simp [calls]) rfl
  rw [accepted] at whole
  simp at whole

end CoUring
