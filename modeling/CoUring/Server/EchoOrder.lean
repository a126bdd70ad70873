import CoUring.Server.EchoStream
import Mathlib.Data.List.TakeWhile

namespace CoUring

open Foundation Server

variable {echo next first last : EchoServer} {label : EchoLabel}
  {history : List (EchoServer × EchoLabel)}

/-! The order of what is sent. -/

/-- The kernel sends whole payloads, in any order. -/
abbrev WholeSend : EchoServer → EchoLabel → Prop :=
  SendsAs fun call send => send.read = call.payload ∧
    send.res = call.payload.length

def wholeEchoSystem : TransitionSystem EchoServer EchoLabel :=
  echoSystem.restrict WholeSend

def EchoServer.sessionCalls (echo : EchoServer) (session : SessionPtr) :
    List EchoCall :=
  echo.calls.filter fun call => call.session = session

def EchoServer.sent (echo : EchoServer) (session : SessionPtr) :
    List ExecutedSend :=
  echo.executed.filter fun send =>
    (echo.sessionCalls session).any fun call => call.frame = send.frame

def EchoServer.stream (echo : EchoServer) (session : SessionPtr) :
    List UInt8 :=
  (echo.sent session).flatMap ExecutedSend.accepted

def EchoLabel.calls : EchoLabel → Bool
  | .onRecvData _ _ _ => true
  | _ => false

/-- No later payload was sent before an earlier one, so that the client sees a
prefix of all payloads. -/
structure EchoServer.EchoesInOrder (echo : EchoServer)
    (session : SessionPtr) : Prop where
  order : (echo.sent session).map ExecutedSend.frame <+:
    (echo.sessionCalls session).map EchoCall.frame
  stream : echo.stream session <+:
    (echo.sessionCalls session).flatMap EchoCall.payload

def EchoServer.callsBefore (echo : EchoServer) (frame : FrameId) :
    List EchoCall :=
  echo.calls.takeWhile fun call => call.frame ≠ frame

/-- Without a further call of `OnRecvData`, no order in which the kernel
executes what is outstanding shows the client a later payload first. -/
def EchoServer.OrderSafe (echo : EchoServer) : Prop :=
  ∀ later final, wholeEchoSystem.Execution echo later final →
    (∀ taken ∈ later, taken.2.calls = false) →
    ∀ session, final.EchoesInOrder session

/-- `OnRecvData` is called on a session when all its earlier payloads were
sent, or the submission queue has no room for another. -/
def EarlierSent (echo : EchoServer) : EchoLabel → Prop
  | .onRecvData worker session _ =>
      (∀ call ∈ echo.sessionCalls session,
        call.frame ∈ echo.executed.map ExecutedSend.frame) ∨
      ¬ (echo.server.workers worker).ioUring.sq.length < IoUring.queueSize
  | _ => True

instance (echo : EchoServer) (label : EchoLabel) :
    Decidable (EarlierSent echo label) :=
  match label with
  | .onRecvData worker session _ =>
      inferInstanceAs (Decidable ((∀ call ∈ echo.sessionCalls session,
          call.frame ∈ echo.executed.map ExecutedSend.frame) ∨
        ¬ (echo.server.workers worker).ioUring.sq.length <
          IoUring.queueSize))
  | .server _ => .isTrue trivial
  | .executeSend _ _ _ _ => .isTrue trivial

theorem EchoServer.EchoesInOrder.of_order
    (whole : ∀ send ∈ echo.executed, ∀ call ∈ echo.calls,
      call.frame = send.frame → send.read = call.payload ∧
        send.res = call.payload.length) {session : SessionPtr}
    (order : (echo.sent session).map ExecutedSend.frame <+:
      (echo.sessionCalls session).map EchoCall.frame) :
    echo.EchoesInOrder session := by
  refine ⟨order, ?_⟩
  have payloads : (echo.sent session).map ExecutedSend.accepted <+:
      (echo.sessionCalls session).map EchoCall.payload := by
    refine prefix_map_of_keys order fun send isSend call isCall same => ?_
    obtain ⟨read, res⟩ := whole send (List.mem_filter.mp isSend).1 call
      (List.mem_filter.mp isCall).1 same.symm
    rw [ExecutedSend.accepted, read, res, Int.toNat_natCast, List.take_length]
  rw [EchoServer.stream, List.flatMap_def, List.flatMap_def]
  exact payloads.flatten

theorem EchoServer.mem_sent {session : SessionPtr} {send : ExecutedSend} :
    send ∈ echo.sent session ↔ send ∈ echo.executed ∧
      ∃ call ∈ echo.calls, call.session = session ∧
        call.frame = send.frame := by
  simp [EchoServer.sent, EchoServer.sessionCalls]

namespace CallsTracked

theorem calls_split (tracked : CallsTracked echo) {call : EchoCall}
    (isCall : call ∈ echo.calls) :
    ∃ later, echo.calls = echo.callsBefore call.frame ++ call :: later := by
  obtain ⟨earlier, later, calls⟩ := List.append_of_mem isCall
  have distinct := tracked.distinct
  rw [calls, List.map_append, List.map_cons] at distinct
  have once := (List.nodup_cons.mp (List.nodup_middle.mp distinct)).1
  have before : echo.callsBefore call.frame = earlier := by
    rw [EchoServer.callsBefore, calls, List.takeWhile_append_of_pos,
      List.takeWhile_cons_of_neg (by simp), List.append_nil]
    intro other member
    refine decide_eq_true fun same => once (List.mem_append_left _ ?_)
    rw [← same]
    exact List.mem_map_of_mem member
  exact ⟨later, before ▸ calls⟩

/-- A session's sends go on in order just when the send executed next is of its
oldest call that was not sent. -/
theorem in_order_snoc (tracked : CallsTracked echo) {call : EchoCall}
    (isCall : call ∈ echo.calls)
    (new : ∀ send ∈ echo.executed, send.frame ≠ call.frame)
    (order : (echo.sent call.session).map ExecutedSend.frame <+:
      (echo.sessionCalls call.session).map EchoCall.frame) :
    (echo.sent call.session).map ExecutedSend.frame ++ [call.frame] <+:
        (echo.sessionCalls call.session).map EchoCall.frame ↔
      ∀ older ∈ echo.callsBefore call.frame, older.session = call.session →
        older.frame ∈ echo.executed.map ExecutedSend.frame := by
  obtain ⟨later, calls⟩ := tracked.calls_split isCall
  generalize echo.callsBefore call.frame = earlier at calls ⊢
  have split : (echo.sessionCalls call.session).map EchoCall.frame =
      (earlier.filter fun other => other.session = call.session).map
        EchoCall.frame ++ call.frame ::
      (later.filter fun other => other.session = call.session).map
        EchoCall.frame := by
    simp [EchoServer.sessionCalls, calls]
  have distinct : ((echo.sessionCalls call.session).map
      EchoCall.frame).Nodup :=
    tracked.distinct.sublist (List.filter_sublist.map _)
  rw [split] at order distinct ⊢
  rw [prefix_snoc_iff distinct order]
  · constructor
    · intro covered older member same
      have isOlder : older.frame ∈ (earlier.filter fun other =>
          other.session = call.session).map EchoCall.frame :=
        List.mem_map_of_mem (List.mem_filter.mpr ⟨member, by simpa⟩)
      obtain ⟨send, isSend, frame⟩ := List.mem_map.mp (covered isOlder)
      exact List.mem_map.mpr ⟨send, (List.mem_filter.mp isSend).1, frame⟩
    · intro sentBefore frame member
      obtain ⟨older, isOlder, rfl⟩ := List.mem_map.mp member
      obtain ⟨isEarlier, same⟩ := List.mem_filter.mp isOlder
      have same : older.session = call.session := by simpa using same
      obtain ⟨send, isSend, frame⟩ :=
        List.mem_map.mp (sentBefore older isEarlier same)
      refine List.mem_map.mpr ⟨send, EchoServer.mem_sent.mpr
        ⟨isSend, older, ?_, same, frame.symm⟩, frame⟩
      rw [calls]
      exact List.mem_append_left _ isEarlier
  · intro member
    obtain ⟨send, isSend, same⟩ := List.mem_map.mp member
    exact new send (List.mem_filter.mp isSend).1 same

theorem sent_called {session : SessionPtr} {call : EchoCall} {server : Server}
    (new : ∀ send ∈ echo.executed, send.frame ≠ call.frame) :
    ({ echo with server := server, calls := echo.calls ++ [call] } :
      EchoServer).sent session = echo.sent session := by
  refine List.filter_congr fun send member => ?_
  have different := (new send member).symm
  simp only [EchoServer.sessionCalls, List.filter_append, List.any_append]
  rw [Bool.or_eq_left_iff_imp, List.any_eq_true]
  rintro ⟨other, isOther, same⟩
  obtain rfl := List.mem_singleton.mp (List.mem_filter.mp isOther).1
  exact absurd (of_decide_eq_true same) different

theorem sent_executed (tracked : CallsTracked echo) {session : SessionPtr}
    {call : EchoCall} (isCall : call ∈ echo.calls) {server : Server}
    (send : ExecutedSend) (frame : send.frame = call.frame) :
    ({ echo with server := server, executed := echo.executed ++ [send] } :
      EchoServer).sent session =
      echo.sent session ++ if call.session = session then [send] else [] := by
  have ofSession : ((echo.sessionCalls session).any fun other =>
      other.frame = send.frame) = decide (call.session = session) := by
    rw [Bool.eq_iff_iff, List.any_eq_true, decide_eq_true_eq]
    constructor
    · rintro ⟨other, isOther, same⟩
      obtain ⟨member, ofSession⟩ := List.mem_filter.mp isOther
      have same := (of_decide_eq_true same).trans frame
      rw [← tracked.same_call member isCall same]
      exact of_decide_eq_true ofSession
    · rintro rfl
      exact ⟨call, List.mem_filter.mpr ⟨isCall, by simp⟩, by simp [frame]⟩
  have selected : [send].filter (fun send =>
      (echo.sessionCalls session).any fun other =>
        other.frame = send.frame) =
      if call.session = session then [send] else [] := by
    rw [List.filter_singleton, ofSession]
    by_cases same : call.session = session
    · simp [same]
    · simp [same]
  exact (List.filter_append ..).trans (congrArg _ selected)

end CallsTracked

/-! As long as no call overtakes a send. -/

def EchoServer.OldestPending (echo : EchoServer) : Prop :=
  ∀ call ∈ echo.calls,
    .sendAwaiter call.frame ∈ echo.server.outstanding call.worker →
    ∀ older ∈ echo.callsBefore call.frame, older.session = call.session →
      older.frame ∈ echo.executed.map ExecutedSend.frame

namespace CallsTracked

variable {worker : WorkerId} {session : SessionPtr} {payload : List UInt8}
  {after : Server}

theorem callsBefore_called {call new : EchoCall}
    (isCall : call ∈ echo.calls) :
    ({ echo with server := after, calls := echo.calls ++ [new] } :
      EchoServer).callsBefore call.frame = echo.callsBefore call.frame := by
  refine List.takeWhile_append.trans (if_neg fun all => ?_)
  have same := (List.takeWhile_prefix (fun other : EchoCall =>
    decide (other.frame ≠ call.frame))).eq_of_length all
  have other := List.takeWhile_eq_self_iff.mp same call isCall
  exact of_decide_eq_true other rfl

theorem callsBefore_new (tracked : CallsTracked echo) {new : EchoCall}
    (frame : new.frame = echo.server.frames.next) :
    ({ echo with server := after, calls := echo.calls ++ [new] } :
      EchoServer).callsBefore new.frame = echo.calls := by
  refine (List.takeWhile_append_of_pos fun call isCall => ?_).trans ?_
  · have below := tracked.frames call isCall
    rw [← frame] at below
    exact decide_eq_true (Nat.ne_of_lt below)
  · rw [List.takeWhile_cons_of_neg (by simp), List.append_nil]

/-- A call leaves only the oldest sends pending just when its session has none,
or its own is lost. -/
theorem oldestPending_iff (tracked : CallsTracked echo)
    (matched : RingsMatch echo.server) (oldest : echo.OldestPending)
    (handed : Handed echo.server after worker payload) :
    EchoServer.OldestPending { echo with
        server := after
        calls := echo.calls ++ [⟨worker, session, payload,
          echo.server.vectors.next, echo.server.frames.next⟩] } ↔
      EarlierSent echo (.onRecvData worker session payload) := by
  constructor
  · intro pending
    by_contra overtakes
    rw [EarlierSent, not_or, not_not] at overtakes
    apply overtakes.1
    intro call isCall
    obtain ⟨member, same⟩ := List.mem_filter.mp isCall
    refine pending _ (List.mem_append_right _ (List.mem_singleton_self _))
      (handed.requests overtakes.2) call ?_ (of_decide_eq_true same)
    rw [tracked.callsBefore_new rfl]
    exact member
  · intro sent call isCall outstanding older isOlder same
    rcases List.mem_append.mp isCall with earlier | new
    · rw [callsBefore_called earlier] at isOlder
      exact oldest call earlier (tracked.earlier_outstanding handed earlier
        outstanding) older isOlder same
    · obtain rfl := List.mem_singleton.mp new
      rw [tracked.callsBefore_new rfl] at isOlder
      rcases sent with settled | full
      · exact settled older (List.mem_filter.mpr ⟨isOlder, by simpa⟩)
      · exact absurd (handed.room matched outstanding) full

end CallsTracked

structure EchoServer.InOrder (echo : EchoServer) : Prop where
  oldest : echo.OldestPending
  order : ∀ session, echo.EchoesInOrder session

theorem EchoServer.InOrder.step (reachable : wholeEchoSystem.Reachable echo)
    (inOrder : echo.InOrder) (step : wholeEchoSystem.step echo label next)
    (sent : EarlierSent echo label) : next.InOrder := by
  have tracked := CallsTracked.of_reachable reachable.unrestricted
  have matched := echo_ringsMatch reachable.unrestricted
  have matched' := echo_ringsMatch (reachable.step step).unrestricted
  have whole := sends_as (reachable.step step)
  cases EchoServer.step_cases step.2 with
  | server silent stepped =>
      refine ⟨fun call isCall outstanding => ?_, fun session =>
        ⟨(inOrder.order session).order, (inOrder.order session).stream⟩⟩
      exact inOrder.oldest call isCall
        (((stepped.silent matched silent).rings _).outstanding
          (matched'.kept _) outstanding)
  | onRecvData dispatching connected =>
      refine ⟨(tracked.oldestPending_iff matched inOrder.oldest
        (onRecvData_handed connected _)).mpr sent,
        fun session' => .of_order whole ?_⟩
      rw [CallsTracked.sent_called fun send member =>
        Nat.ne_of_lt (tracked.executed_lt member)]
      refine (inOrder.order session').order.trans ?_
      rw [EchoServer.sessionCalls, EchoServer.sessionCalls, List.filter_append,
        List.map_append]
      exact List.prefix_append _ _
  | executeSend executable reads stepped =>
      obtain ⟨call, isCall, rfl, rfl, -, outstanding, new⟩ :=
        tracked.executable_call executable
      have oldest := inOrder.oldest call isCall outstanding
      refine ⟨fun other isOther pending older isOlder same => ?_,
        fun session => .of_order whole ?_⟩
      · rw [List.map_append]
        exact List.mem_append_left _ (inOrder.oldest other isOther
          (outstanding_sent executable pending) older isOlder same)
      · rw [tracked.sent_executed isCall _ rfl]
        by_cases same : call.session = session
        · subst same
          rw [if_pos rfl, List.map_append]
          exact (tracked.in_order_snoc isCall new
            (inOrder.order call.session).order).mpr oldest
        · rw [if_neg same, List.append_nil]
          exact (inOrder.order session).order

theorem EarlierSent.of_silent (silent : label.calls = false) :
    EarlierSent echo label := by
  cases label with
  | onRecvData worker session payload => cases silent
  | server label => trivial
  | executeSend worker index res read => trivial

theorem EchoServer.InOrder.safe (reachable : wholeEchoSystem.Reachable echo)
    (inOrder : echo.InOrder) : echo.OrderSafe := by
  intro later final run silent
  suffices kept : final.InOrder from kept.order
  induction run with
  | refl => exact inOrder
  | @snoc middle final later label run step induction =>
      rw [List.forall_mem_append] at silent
      exact (induction silent.1).step (reachable.extend run) step
        (.of_silent (silent.2 _ (List.mem_singleton_self _)))

/-! The kernel order that a call makes possible when it overtakes a send. -/

/-- A send that was submitted or waits to be, of a worker that dispatches. -/
structure EchoServer.Sendable (echo : EchoServer) (call : EchoCall) :
    Prop where
  called : call ∈ echo.calls
  unsent : ∀ send ∈ echo.executed, send.frame ≠ call.frame
  outstanding :
    .sendAwaiter call.frame ∈ echo.server.outstanding call.worker

/-- Later in a run in which nothing was called and nothing was sent. -/
structure EchoServer.Later (echo later : EchoServer) : Prop where
  run : ∃ history, wholeEchoSystem.Execution echo history later ∧
    ∀ taken ∈ history, taken.2.calls = false
  calls : later.calls = echo.calls
  executed : later.executed = echo.executed

namespace EchoServer.Later

variable {middle later : EchoServer}

theorem refl : echo.Later echo where
  run := ⟨[], .refl, nofun⟩
  calls := rfl
  executed := rfl

theorem snoc (before : echo.Later middle) {label : Label} {server : Server}
    (healthy : middle.server.faulted = false)
    (silent : label.executesSend = false)
    (stepped : Stepped middle.server label server) :
    echo.Later { middle with
      server := server
      ended := middle.ended ++ middle.server.endings label } := by
  obtain ⟨⟨history, run, quiet⟩, calls, executed⟩ := before
  have performed : middle.step (.server label) = some { middle with
      server := server
      ended := middle.ended ++ middle.server.endings label } := by
    simp [EchoServer.step, silent, stepped.step healthy]
  have step : wholeEchoSystem.step middle (.server label) _ :=
    ⟨trivial, performed⟩
  exact ⟨⟨_, run.snoc step, List.forall_mem_append.mpr
    ⟨quiet, List.forall_mem_singleton.mpr rfl⟩⟩, calls, executed⟩

theorem reachable (before : echo.Later later)
    (reachable : wholeEchoSystem.Reachable echo) :
    wholeEchoSystem.Reachable later := by
  obtain ⟨history, run, -⟩ := before.run
  exact reachable.extend run

theorem of_later (first : echo.Later middle) (second : middle.Later later) :
    echo.Later later := by
  obtain ⟨⟨history, run, quiet⟩, calls, executed⟩ := first
  obtain ⟨⟨history', run', quiet'⟩, calls', executed'⟩ := second
  exact ⟨⟨_, run.trans run', List.forall_mem_append.mpr ⟨quiet, quiet'⟩⟩,
    calls'.trans calls, executed'.trans executed⟩

end EchoServer.Later

theorem EchoServer.Sendable.later {call : EchoCall} {later : EchoServer}
    (sendable : echo.Sendable call) (follows : echo.Later later)
    (outstanding :
      .sendAwaiter call.frame ∈ later.server.outstanding call.worker) :
    later.Sendable call where
  called := follows.calls ▸ sendable.called
  unsent := follows.executed ▸ sendable.unsent
  outstanding := outstanding

theorem dispatches_all (reachable : wholeEchoSystem.Reachable echo)
    {call : EchoCall} (sendable : echo.Sendable call)
    (dispatching :
      (echo.server.workers call.worker).phase = .dispatching) :
    ∃ later, echo.Later later ∧ later.Sendable call ∧
      (later.server.workers call.worker).phase = .dispatching ∧
      (later.server.workers call.worker).ioUring.cq = [] := by
  generalize completions :
    (echo.server.workers call.worker).ioUring.cq = cq
  induction cq generalizing echo with
  | nil => exact ⟨echo, .refl, sendable, dispatching, completions⟩
  | cons cqe rest induction =>
      have matched := echo_ringsMatch reachable.unrestricted
      have healthy := (echo_sessionsHeld reachable.unrestricted).healthy
      have started := started_of_phase dispatching Phase.noConfusion
      have tracked := CallsTracked.of_reachable reachable.unrestricted
      have stepped : Stepped echo.server (.dispatch call.worker "") _ :=
        .dispatch dispatching completions
      have taken := EchoServer.Later.refl.snoc healthy rfl stepped
      have other : cqe.userData ≠ some (.sendAwaiter call.frame) := by
        intro carries
        obtain ⟨send, isSend, same, -⟩ := tracked.completed call.worker cqe
          call.frame (by simp [completions]) carries
        exact sendable.unsent send isSend same
      have still := matched.dispatch_grows started completions ""
        sendable.outstanding other
      obtain ⟨cq, -⟩ := matched.dispatch_completions started completions ""
        call.worker
      rw [setWorker_self] at cq
      obtain ⟨later, follows, rest⟩ := induction (taken.reachable reachable)
        (sendable.later taken still)
        ((matched.dispatch_phase started completions "" call.worker).trans
          dispatching) cq
      exact ⟨later, taken.of_later follows, rest⟩

theorem submits_all (reachable : wholeEchoSystem.Reachable echo)
    {call : EchoCall} (sendable : echo.Sendable call)
    (dispatching : (echo.server.workers call.worker).phase = .dispatching)
    (empty : (echo.server.workers call.worker).ioUring.cq = []) :
    ∃ later index, echo.Later later ∧
      Executable later.server call.worker index call.payload.length
        ⟨call.storage, call.payload.length⟩ call.frame := by
  have matched := echo_ringsMatch reachable.unrestricted
  have tracked := CallsTracked.of_reachable reachable.unrestricted
  have healthy := (echo_sessionsHeld reachable.unrestricted).healthy
  obtain ⟨request, requested, carries⟩ : ∃ request,
      (echo.server.workers call.worker).ioUring.Requested request ∧
        request.userData = .sendAwaiter call.frame := by
    rcases (matched.kept call.worker).send_requested
        sendable.outstanding with
      ⟨request, buf, requested, -, carries⟩ | ⟨cqe, member, -⟩
    · exact ⟨request, requested, carries⟩
    · rw [empty] at member
      cases member
  have points := tracked.points matched sendable.called requested carries
  have ended : Stepped echo.server (.endBatch call.worker) _ :=
    .endBatch dispatching empty
  have left := EchoServer.Later.refl.snoc healthy rfl ended
  have submitted : Stepped (echo.server.setWorker call.worker
      { echo.server.workers call.worker with phase := .looping })
      (.submit call.worker) _ := .submit (by rw [setWorker_self])
  have later := left.snoc healthy rfl submitted
  have inflight : request ∈
      (echo.server.workers call.worker).ioUring.inflight ++
        (echo.server.workers call.worker).ioUring.sq :=
    List.mem_append.mpr requested.symm
  obtain ⟨index, found⟩ := List.getElem?_of_mem inflight
  refine ⟨_, index, later, ⟨request.rawFd, ?_⟩, le_refl _⟩
  dsimp only
  rw [setWorker_self, setWorker_self, ← points, ← carries]
  exact found

theorem sends_executable (reachable : wholeEchoSystem.Reachable echo)
    {call : EchoCall} (isCall : call ∈ echo.calls) {index : Nat}
    (executable : Executable echo.server call.worker index
      call.payload.length ⟨call.storage, call.payload.length⟩ call.frame) :
    wholeEchoSystem.step echo
      (.executeSend call.worker index call.payload.length call.payload)
      { echo with
        server := echo.server.setWorker call.worker
          ((echo.server.workers call.worker).sent index call.frame
            call.payload.length)
        executed := echo.executed ++
          [⟨call.frame, call.payload, call.payload.length⟩] } := by
  have tracked := CallsTracked.of_reachable reachable.unrestricted
  have healthy := (echo_sessionsHeld reachable.unrestricted).healthy
  obtain ⟨rawFd, found⟩ := executable.inflight
  refine ⟨fun other isOther carries => ?_, ?_⟩
  · rw [found] at carries
    obtain rfl := tracked.same_call isCall isOther
      (SqeAddr.sendAwaiter.inj (Option.some.inj carries))
    exact ⟨rfl, rfl⟩
  · have reads : echo.server.mayRead
        ⟨call.storage, call.payload.length⟩ call.payload = true := by
      rw [Server.mayRead, tracked.freed]
      exact decide_eq_true rfl
    have completed : (echo.server.workers call.worker).complete index
        (.sent call.payload.length) =
          some ((echo.server.workers call.worker).sent index call.frame
            call.payload.length) := by
      simp [Worker.complete, Worker.sent, found]
    have stepped := (Stepped.complete completed).step healthy
    change echo.step _ = _
    simp only [EchoServer.step, found, reads, if_true, stepped,
      Option.map_some]

/-- A call that is made while an earlier send of its session is due lets the
kernel execute the later one first. -/
theorem overtakes (reachable : wholeEchoSystem.Reachable echo)
    {call older : EchoCall} (sendable : echo.Sendable call)
    (dispatching : (echo.server.workers call.worker).phase = .dispatching)
    (isOlder : older ∈ echo.callsBefore call.frame)
    (same : older.session = call.session)
    (due : older.frame ∉ echo.executed.map ExecutedSend.frame) :
    ¬ echo.OrderSafe := by
  intro safe
  obtain ⟨idle, first, sendable', dispatching', empty⟩ :=
    dispatches_all reachable sendable dispatching
  obtain ⟨last, index, second, executable⟩ := submits_all
    (first.reachable reachable) sendable' dispatching' empty
  have later := first.of_later second
  have reached := later.reachable reachable
  have tracked := CallsTracked.of_reachable reached.unrestricted
  have isCall : call ∈ last.calls := later.calls ▸ sendable.called
  have step := sends_executable reached isCall executable
  obtain ⟨⟨history, run, quiet⟩, calls, executed⟩ := later
  have inOrder := safe _ _ (run.snoc step) (List.forall_mem_append.mpr
    ⟨quiet, List.forall_mem_singleton.mpr rfl⟩) call.session
  have order := inOrder.order
  rw [tracked.sent_executed isCall _ rfl, if_pos rfl,
    List.map_append] at order
  have covered := (tracked.in_order_snoc isCall
    (executed ▸ sendable.unsent) ((List.prefix_append _ _).trans order)).mp
      order older
  rw [EchoServer.callsBefore, calls, executed] at covered
  exact due (covered isOlder same)

theorem earlierSent_of_safe (reachable : wholeEchoSystem.Reachable echo)
    (step : wholeEchoSystem.step echo label next) (safe : next.OrderSafe) :
    EarlierSent echo label := by
  have tracked := CallsTracked.of_reachable reachable.unrestricted
  cases EchoServer.step_cases step.2 with
  | server silent stepped => trivial
  | executeSend executable reads stepped => trivial
  | @onRecvData worker session payload dispatching connected =>
      by_contra due
      rw [EarlierSent, not_or, not_not] at due
      obtain ⟨waits, room⟩ := due
      simp only [not_forall, exists_prop] at waits
      obtain ⟨older, isOlder, unsent⟩ := waits
      obtain ⟨earlier, same⟩ := List.mem_filter.mp isOlder
      have handed : Handed echo.server _ worker payload :=
        onRecvData_handed connected payload
      have new : (⟨worker, session, payload, echo.server.vectors.next,
          echo.server.frames.next⟩ : EchoCall) ∈ echo.calls ++ [_] :=
        List.mem_append_right _ (List.mem_singleton_self _)
      refine overtakes (reachable.step step) ⟨new, ?_, handed.requests room⟩
        ?_ ?_ (of_decide_eq_true same) unsent safe
      · exact fun send member => Nat.ne_of_lt (tracked.executed_lt member)
      · obtain ⟨rawFd, workers⟩ := handed.workers
        dsimp only
        rw [workers, setIoUring, setWorker_self]
        exact dispatching
      · rw [tracked.callsBefore_new rfl]
        exact earlier

/-- The client sees its payloads in order, in whatever order the kernel
executes the sends, just when each call waits for the sends of its session. -/
theorem echoes_in_order_iff (start : wholeEchoSystem.initial first)
    (run : wholeEchoSystem.Execution first history last) :
    (∀ echo ∈ TransitionSystem.visited history last, echo.OrderSafe) ↔
      ∀ taken ∈ history, EarlierSent taken.1 taken.2 := by
  refine TransitionSystem.Execution.safe_iff_guarded EchoServer.InOrder
    ?_ ?_ ?_ ?_ start run
  · intro echo initial
    cases initial
    refine ⟨?_, fun session => ⟨List.nil_prefix, List.nil_prefix⟩⟩
    intro call isCall
    cases isCall
  · intro echo label next reachable inOrder step sent
    exact inOrder.step reachable step sent
  · intro echo reachable inOrder
    exact inOrder.safe reachable
  · intro echo label next reachable step safe
    exact earlierSent_of_safe reachable step safe

/-- The second payload comes when the first was sent. -/
def onePayloadAfterAnother : List EchoLabel :=
  connected ++ [.onRecvData 0 0 [1], .server (.endBatch 0),
    .server (.submit 0), .executeSend 0 2 1 [1], .server (.wake 0),
    .onRecvData 0 0 [2]]

theorem second_payload_waits :
    ∃ last, TransitionSystem.runLabels
        (TransitionSystem.restrictStep WholeSend EchoServer.step) {}
        onePayloadAfterAnother = some last ∧
      (last.sessionCalls 0).map EchoCall.payload = [[1], [2]] ∧
      last.stream 0 = [1] ∧
      ∀ echo ∈ TransitionSystem.visited (TransitionSystem.traceLabels
          (TransitionSystem.restrictStep WholeSend EchoServer.step) {}
          onePayloadAfterAnother) last, echo.OrderSafe := by
  have run : ∃ last, TransitionSystem.runLabels
      (TransitionSystem.restrictStep WholeSend EchoServer.step) {}
      onePayloadAfterAnother = some last ∧
      (last.sessionCalls 0).map EchoCall.payload = [[1], [2]] ∧
      last.stream 0 = [1] := ⟨_, rfl, rfl, rfl⟩
  obtain ⟨last, run, payloads, stream⟩ := run
  refine ⟨last, run, payloads, stream,
    (echoes_in_order_iff rfl (.restrictLabels run)).mpr ?_⟩
  decide +kernel

/-- Both payloads are handed over at once, and the kernel executes the second
send first. -/
def twoPayloads : List EchoLabel :=
  connected ++ [.onRecvData 0 0 [1], .onRecvData 0 0 [2],
    .server (.endBatch 0), .server (.submit 0), .executeSend 0 3 1 [2]]

theorem second_payload_first :
    ∃ last, TransitionSystem.runLabels
        (TransitionSystem.restrictStep WholeSend EchoServer.step) {}
        twoPayloads = some last ∧
      wholeEchoSystem.Reachable last ∧
      last.stream 0 = [2] ∧ ¬ last.EchoesInOrder 0 := by
  have run : ∃ last, TransitionSystem.runLabels
      (TransitionSystem.restrictStep WholeSend EchoServer.step) {}
      twoPayloads = some last ∧
      last.stream 0 = [2] ∧
      (last.sessionCalls 0).flatMap EchoCall.payload = [1, 2] :=
    ⟨_, rfl, rfl, rfl⟩
  obtain ⟨last, run, stream, payloads⟩ := run
  refine ⟨last, run, TransitionSystem.Execution.reachable rfl
    (.restrictLabels run), stream, fun inOrder => ?_⟩
  have isPrefix := inOrder.stream
  rw [stream, payloads] at isPrefix
  revert isPrefix
  decide

end CoUring
