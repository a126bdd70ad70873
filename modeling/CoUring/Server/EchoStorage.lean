import CoUring.Foundation.Listing
import CoUring.Server.EchoCalls
import Mathlib.Data.List.Infix

namespace CoUring

open Foundation Server

variable {echo next first last : EchoServer} {label : EchoLabel}
  {history : List (EchoServer × EchoLabel)}

/-! Whose storage a send points at. -/

/-- Until the completion of a call's send is dispatched, its bytes have an
owner, so that the kernel reads just them. -/
structure EchoServer.PayloadOutlives (echo : EchoServer) (call : EchoCall) :
    Prop where
  points : ∀ request,
    (echo.server.workers call.worker).ioUring.Requested request →
    request.userData = .sendAwaiter call.frame →
    request.operation = .send ⟨call.storage, call.payload.length⟩
  owned : .sendAwaiter call.frame ∈ echo.server.outstanding call.worker →
    call.payload ≠ [] →
    echo.server.vectors.cell call.storage = some call.payload
  read : ∀ send ∈ echo.executed, send.frame = call.frame →
    send.read = call.payload

/-- A call of `OnRecvData` queues no byte: there is none, or the submission
queue is full. -/
def QueuesNoByte (echo : EchoServer) : EchoLabel → Prop
  | .onRecvData worker _ payload => payload = [] ∨
      ¬ (echo.server.workers worker).ioUring.sq.length < IoUring.queueSize
  | _ => True

namespace CallsTracked

theorem points (tracked : CallsTracked echo) (matched : RingsMatch echo.server)
    {call : EchoCall} (member : call ∈ echo.calls) {worker : WorkerId}
    {request : Request}
    (requested : (echo.server.workers worker).ioUring.Requested request)
    (carries : request.userData = .sendAwaiter call.frame) :
    request.operation = .send ⟨call.storage, call.payload.length⟩ := by
  have fits := (matched.kept worker).fits request requested
  rw [carries] at fits
  cases operation : request.operation with
  | multishotAccept =>
      rw [operation] at fits
      cases fits
  | recv =>
      rw [operation] at fits
      cases fits
  | send buf =>
      obtain ⟨call', isCall, -, carries', rfl⟩ :=
        tracked.requested worker request buf operation requested
      rw [carries] at carries'
      rw [tracked.same_call member isCall (SqeAddr.sendAwaiter.inj carries')]

theorem outlives_iff (tracked : CallsTracked echo)
    (matched : RingsMatch echo.server) {call : EchoCall}
    (member : call ∈ echo.calls) :
    echo.PayloadOutlives call ↔
      (.sendAwaiter call.frame ∈ echo.server.outstanding call.worker →
        call.payload = []) ∧
      ∀ send ∈ echo.executed, send.frame = call.frame →
        send.read = call.payload := by
  constructor
  · rintro ⟨-, owned, read⟩
    refine ⟨fun outstanding => ?_, read⟩
    by_contra nonempty
    have stored := owned outstanding nonempty
    rw [tracked.freed] at stored
    cases stored
  · rintro ⟨empty, read⟩
    refine ⟨fun request => tracked.points matched member, ?_, read⟩
    exact fun outstanding nonempty => absurd (empty outstanding) nonempty

end CallsTracked

theorem Server.outstanding_sent {server : Server} {worker other : WorkerId}
    {index : Nat} {res : Int} {buf : Span} {frame : FrameId}
    {address : SqeAddr}
    (executable : Executable server worker index res buf frame)
    (member : address ∈ (server.setWorker worker
      ((server.workers worker).sent index frame res)).outstanding other) :
    address ∈ server.outstanding other := by
  obtain ⟨rawFd, found⟩ := executable.inflight
  have same : ((server.workers worker).sent index frame
      res).ioUring.outstanding.Perm (server.outstanding worker) :=
    IoUring.outstanding_completed found rfl
  exact setWorker_forall worker _
    (fun other contents => ∀ address ∈ contents.ioUring.outstanding,
      address ∈ server.outstanding other)
    (fun _ member => same.subset member) (fun _ _ member => member) other
    address member

theorem Handed.outstanding {before after : Server} {worker other : WorkerId}
    {payload : List UInt8} (handed : Handed before after worker payload)
    {address : SqeAddr} (member : address ∈ after.outstanding other) :
    address ∈ before.outstanding other ∨
      other = worker ∧ address = .sendAwaiter before.frames.next ∧
        (before.workers worker).ioUring.sq.length < IoUring.queueSize := by
  obtain ⟨rawFd, workers⟩ := handed.workers
  rw [Server.outstanding, workers] at member
  refine setWorker_forall worker _
    (fun other contents => ∀ address ∈ contents.ioUring.outstanding,
      address ∈ before.outstanding other ∨ other = worker ∧
        address = .sendAwaiter before.frames.next ∧
          (before.workers worker).ioUring.sq.length < IoUring.queueSize)
    ?_ (fun _ _ member => .inl member) other address member
  intro address member
  by_cases room : (before.workers worker).ioUring.sq.length <
      IoUring.queueSize
  · exact (IoUring.mem_outstanding_queueRequest member).imp_right
      fun added => ⟨rfl, added, room⟩
  · rw [IoUring.queueRequest_full _ room] at member
    exact .inl member

theorem Handed.requests {before after : Server} {worker : WorkerId}
    {payload : List UInt8} (handed : Handed before after worker payload)
    (room : (before.workers worker).ioUring.sq.length < IoUring.queueSize) :
    .sendAwaiter before.frames.next ∈ after.outstanding worker := by
  obtain ⟨rawFd, workers⟩ := handed.workers
  rw [Server.outstanding, workers, setIoUring, setWorker_self]
  exact (IoUring.outstanding_queueRequest room).symm.subset (.head _)

/-- The new frame's request is outstanding only where the queue had room. -/
theorem Handed.room {before after : Server} {worker : WorkerId}
    {payload : List UInt8} (handed : Handed before after worker payload)
    (matched : RingsMatch before)
    (outstanding : .sendAwaiter before.frames.next ∈ after.outstanding worker) :
    (before.workers worker).ioUring.sq.length < IoUring.queueSize := by
  rcases handed.outstanding outstanding with old | ⟨-, -, room⟩
  · obtain ⟨frame, awaits⟩ := matched.awaited worker _ old
    obtain rfl := awaits.frame_eq rfl
    obtain ⟨point, stored⟩ := awaits.stored
    exact absurd (Heap.lt_next stored) (Nat.lt_irrefl _)
  · exact room

theorem CallsTracked.earlier_outstanding (tracked : CallsTracked echo)
    {after : Server} {worker : WorkerId} {payload : List UInt8}
    (handed : Handed echo.server after worker payload) {call : EchoCall}
    (member : call ∈ echo.calls)
    (outstanding : .sendAwaiter call.frame ∈ after.outstanding call.worker) :
    .sendAwaiter call.frame ∈ echo.server.outstanding call.worker := by
  rcases handed.outstanding outstanding with old | ⟨-, new, -⟩
  · exact old
  · exact absurd (tracked.frames call member)
      (SqeAddr.sendAwaiter.inj new ▸ Nat.lt_irrefl _)

theorem CallsTracked.read_empty (tracked : CallsTracked echo)
    {worker : WorkerId} {index : Nat} {res : Int} {read : List UInt8}
    {buf : Span} {call : EchoCall} (member : call ∈ echo.calls)
    (empty : .sendAwaiter call.frame ∈ echo.server.outstanding call.worker →
      call.payload = [])
    (executable : Executable echo.server worker index res buf call.frame)
    (reads : echo.server.mayRead buf read = true) : read = call.payload := by
  obtain ⟨call', isCall, rfl, frame, rfl, outstanding, -⟩ :=
    tracked.executable_call executable
  obtain rfl := tracked.same_call member isCall frame
  rw [Server.mayRead, tracked.freed] at reads
  have size : read.length = call.payload.length := of_decide_eq_true reads
  rw [empty outstanding] at size ⊢
  exact List.eq_nil_of_length_eq_zero size

/-- In a state where all is well, only a call that queues no byte leaves it
so. -/
theorem outlives_step (reachable : echoSystem.Reachable echo)
    (good : ∀ call ∈ echo.calls, echo.PayloadOutlives call)
    (step : echoSystem.step echo label next) :
    (∀ call ∈ next.calls, next.PayloadOutlives call) ↔
      QueuesNoByte echo label := by
  have matched := echo_ringsMatch reachable
  have tracked := CallsTracked.of_reachable reachable
  have matched' := echo_ringsMatch (reachable.step step)
  have tracked' := CallsTracked.of_reachable (reachable.step step)
  have unsent := fun call member =>
    ((tracked.outlives_iff matched member).mp (good call member))
  cases EchoServer.step_cases step with
  | server silent stepped =>
      refine iff_of_true (fun call member => ?_) trivial
      refine (tracked'.outlives_iff matched' member).mpr
        ⟨fun outstanding => (unsent call member).1 ?_,
          (unsent call member).2⟩
      exact ((stepped.silent matched silent).rings _).outstanding
        (matched'.kept _) outstanding
  | @executeSend worker index res read buf frame executable reads stepped =>
      refine iff_of_true (fun call member => ?_) trivial
      refine (tracked'.outlives_iff matched' member).mpr
        ⟨fun outstanding => (unsent call member).1
          (outstanding_sent executable outstanding), ?_⟩
      intro send isSend same
      rcases List.mem_append.mp isSend with earlier | added
      · exact (unsent call member).2 send earlier same
      · obtain rfl := List.mem_singleton.mp added
        cases same
        exact tracked.read_empty member (unsent call member).1 executable reads
  | @onRecvData worker session payload dispatching connected =>
      have handed : Handed echo.server _ worker payload :=
        onRecvData_handed connected payload
      constructor
      · intro all
        by_contra queues
        rw [QueuesNoByte, not_or, not_not] at queues
        have added : (⟨worker, session, payload, echo.server.vectors.next,
            echo.server.frames.next⟩ : EchoCall) ∈ echo.calls ++ [_] :=
          List.mem_append_right _ (List.mem_singleton_self _)
        have outlives := (tracked'.outlives_iff matched' added).mp
          (all _ added)
        exact queues.1 (outlives.1 (handed.requests queues.2))
      · intro queuesNone call member
        refine (tracked'.outlives_iff matched' member).mpr ⟨?_, ?_⟩
        · intro outstanding
          rcases List.mem_append.mp member with earlier | added
          · exact (unsent call earlier).1
              (tracked.earlier_outstanding handed earlier outstanding)
          · obtain rfl := List.mem_singleton.mp added
            rcases queuesNone with empty | full
            · exact empty
            · exact absurd (handed.room matched outstanding) full
        · intro send isSend same
          rcases List.mem_append.mp member with earlier | added
          · exact (unsent call earlier).2 send isSend same
          · obtain rfl := List.mem_singleton.mp added
            exact absurd (tracked.executed_lt isSend)
              (same ▸ Nat.lt_irrefl _)

/-- Payloads outlive their requests in the runs whose calls queue none. -/
theorem payloads_outlive_iff (start : echoSystem.initial first)
    (run : echoSystem.Execution first history last) :
    (∀ echo ∈ TransitionSystem.visited history last,
      ∀ call ∈ echo.calls, echo.PayloadOutlives call) ↔
      ∀ taken ∈ history, QueuesNoByte taken.1 taken.2 := by
  refine run.good_iff_guarded ?_ ?_ start
  · rintro _ rfl call member
    cases member
  · intro echo label next reachable good step
    exact outlives_step reachable good step

def connected : List EchoLabel :=
  [.server (.start 0 ⟨0, none, 0, some 3, 0⟩), .server (.submit 0),
    .server (.complete 0 0 (.accepted 7 true)), .server (.wake 0),
    .server (.dispatch 0 "first")]

theorem empty_payload_outlives :
    ∃ last, TransitionSystem.runLabels EchoServer.step {}
        (connected ++ [.onRecvData 0 0 []]) = some last ∧
      last.calls ≠ [] ∧
      ∀ echo ∈ TransitionSystem.visited (TransitionSystem.traceLabels
          EchoServer.step {} (connected ++ [.onRecvData 0 0 []])) last,
        ∀ call ∈ echo.calls, echo.PayloadOutlives call := by
  have run : ∃ last, TransitionSystem.runLabels EchoServer.step {}
      (connected ++ [.onRecvData 0 0 []]) = some last ∧
      last.calls ≠ [] := ⟨_, rfl, by simp⟩
  obtain ⟨last, run, calls⟩ := run
  refine ⟨last, run, calls,
    (payloads_outlive_iff rfl (.runLabels run)).mpr fun taken member => ?_⟩
  have labels := TransitionSystem.mem_traceLabels member
  obtain ⟨echo, label⟩ := taken
  simp only [connected, List.cons_append, List.nil_append, List.mem_cons,
    List.not_mem_nil, or_false] at labels
  rcases labels with rfl | rfl | rfl | rfl | rfl | rfl
  · trivial
  · trivial
  · trivial
  · trivial
  · trivial
  · exact .inl rfl

/-- One byte is echoed; when `OnRecvData` returns, its request points at
nothing. -/
theorem one_byte_dangles :
    ∃ last, TransitionSystem.runLabels EchoServer.step {}
        (connected ++ [.onRecvData 0 0 [1]]) = some last ∧
      ∃ call ∈ last.calls, ¬ last.PayloadOutlives call := by
  have run : ∃ last, TransitionSystem.runLabels EchoServer.step {}
      (connected ++ [.onRecvData 0 0 [1]]) = some last ∧
      ∃ call ∈ last.calls, call.payload ≠ [] ∧
        .sendAwaiter call.frame ∈ last.server.outstanding call.worker ∧
        last.server.vectors.cell call.storage = none :=
    ⟨_, rfl, ⟨0, 0, [1], 0, 5⟩, .head _, by simp, by decide, rfl⟩
  obtain ⟨last, run, call, member, nonempty, outstanding, gone⟩ := run
  refine ⟨last, run, call, member, fun outlives => ?_⟩
  have owned := outlives.owned outstanding nonempty
  rw [gone] at owned
  cases owned

end CoUring
