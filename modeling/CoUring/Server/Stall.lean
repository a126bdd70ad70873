import CoUring.Server.EventLoop
import CoUring.Server.SubmissionQueue

namespace CoUring

open Foundation Server

variable {server before after first last : Server} {worker other : WorkerId}
  {label : Label} {cqe : Cqe} {rest : List Cqe} {generated : SessionId}
  {history : List (Server × Label)}

/-! Workers that never dispatch anything again. -/

def Label.Dispatches (label : Label) (worker : WorkerId) : Prop :=
  ∃ generated, label = .dispatch worker generated

/-- A completion of the worker is dispatched that makes a coroutine receive. -/
def Server.MakesReceive (server : Server) (worker : WorkerId)
    (label : Label) : Prop :=
  label.Dispatches worker ∧
    ∃ cqe rest, (server.workers worker).ioUring.cq = cqe :: rest ∧
      cqe.Receives

/-- What a step does to a worker's place in its event loop and to its
submission queue. -/
inductive QueueStep (before : Server) (label : Label) (after : Server)
    (worker : WorkerId) : Prop
  | other (undispatched : ¬ label.Dispatches worker)
      (phase : (after.workers worker).phase = (before.workers worker).phase)
      (queue : (after.workers worker).ioUring.sq =
        (before.workers worker).ioUring.sq)
  | started (undispatched : ¬ label.Dispatches worker)
      (unstarted : (before.workers worker).phase = .notStarted)
      (phase : (after.workers worker).phase = .looping)
  | submitted (undispatched : ¬ label.Dispatches worker)
      (looping : (before.workers worker).phase = .looping)
      (phase : (after.workers worker).phase =
        .waiting (before.workers worker).ioUring.sq.length)
      (queue : (after.workers worker).ioUring.sq = [])
  | failed (fails : label = .submitFails worker)
      (looping : (before.workers worker).phase = .looping)
      (phase : (after.workers worker).phase = .dispatching)
  | woken (undispatched : ¬ label.Dispatches worker) (submitted : Nat)
      (waiting : (before.workers worker).phase = .waiting submitted)
      (phase : (after.workers worker).phase =
        if submitted = 0 then .looping else .dispatching)
      (queue : (after.workers worker).ioUring.sq =
        (before.workers worker).ioUring.sq)
  | ended (undispatched : ¬ label.Dispatches worker)
      (dispatching : (before.workers worker).phase = .dispatching)
      (phase : (after.workers worker).phase = .looping)
      (queue : (after.workers worker).ioUring.sq =
        (before.workers worker).ioUring.sq)
  | dispatched (dispatching : (before.workers worker).phase = .dispatching)
      (phase : (after.workers worker).phase = .dispatching)
      (queue : (after.workers worker).ioUring.sq = [] ↔
        (before.workers worker).ioUring.sq = [] ∧
          ¬ before.MakesReceive worker label)

theorem QueueStep.unchanged (undispatched : ¬ label.Dispatches worker)
    (same : after.workers worker = before.workers worker) :
    QueueStep before label after worker :=
  .other undispatched (by rw [same]) (by rw [same])

theorem queueRequest_sq_ne_nil {ring : IoUring} (request : Request) :
    (ring.queueRequest request).sq ≠ [] := by
  unfold IoUring.queueRequest
  split
  next => simp
  next full =>
    intro empty
    rw [empty] at full
    exact full (by decide)

theorem Worker.complete_sq {contents next : Worker} {index : Nat}
    {result : KernelResult}
    (completed : contents.complete index result = some next) :
    next.ioUring.sq = contents.ioUring.sq := by
  obtain ⟨request, -, answered⟩ := complete_cases completed
  rcases answered with
    ⟨res, more, -, rfl⟩ | ⟨cqe, buffers, -, -, rfl⟩ | ⟨buf, res, -, rfl⟩
  · rfl
  · rfl
  · rfl

theorem Dispatched.queue
    (dispatched : Dispatched server worker cqe rest generated after)
    (next : (server.workers worker).ioUring.cq = cqe :: rest) :
    (after.workers worker).ioUring.sq = [] ↔
      (server.workers worker).ioUring.sq = [] ∧
        ¬ server.MakesReceive worker (.dispatch worker generated) := by
  have receives : server.MakesReceive worker (.dispatch worker generated) ↔
      cqe.Receives := by
    constructor
    · intro makes
      obtain ⟨-, other, others, next', receives⟩ := makes
      cases next.symm.trans next'
      exact receives
    · exact fun receives => ⟨⟨generated, rfl⟩, cqe, rest, next, receives⟩
  rw [receives]
  cases dispatched.outcome with
  | refused carries failed ring =>
      rw [ring, Cqe.Receives, carries]
      exact (and_iff_left (not_le.mpr failed)).symm
  | accepted carries success ring =>
      rw [ring, Cqe.Receives, carries]
      exact iff_of_false (queueRequest_sq_ne_nil _)
        fun quiet => quiet.2 success
  | received rawFd carries suspended received ring =>
      rw [ring, Cqe.Receives, carries]
      exact iff_of_false (queueRequest_sq_ne_nil _)
        fun quiet => quiet.2 received
  | ended carries suspended ended ring =>
      rw [ring, Cqe.Receives, carries]
      exact (and_iff_left (not_lt.mpr ended)).symm

theorem queueStep_of_step (reachable : serverSystem.Reachable before)
    (step : before.step label = some after) (worker : WorkerId) :
    QueueStep before label after worker := by
  have matched := ringsMatch_of_reachable reachable
  have elsewhere : ∀ {acting : WorkerId} {contents : Worker},
      worker ≠ acting → ¬ label.Dispatches worker →
      QueueStep before label (before.setWorker acting contents) worker :=
    fun different undispatched =>
      .unchanged undispatched (setWorker_other _ different)
  cases (step_cases step).2 with
  | @start acting outcome unstarted =>
      have undispatched : ¬ (Label.start acting outcome).Dispatches worker :=
        (not_exists.mpr fun _ => Label.noConfusion)
      by_cases same : worker = acting
      · subst same
        refine .started undispatched unstarted ?_
        rw [(Quiet.startWorker outcome).phase, setWorker_self]
        exact (initStages_same outcome _).1
      · exact .unchanged undispatched (startWorker_other outcome same)
  | @submit acting looping =>
      by_cases same : worker = acting
      · subst same
        refine .submitted (not_exists.mpr fun _ => Label.noConfusion) looping
          ?_ ?_
        · rw [setWorker_self]
          rfl
        · rw [setWorker_self]
          rfl
      · exact elsewhere same (not_exists.mpr fun _ => Label.noConfusion)
  | @submitFails acting looping =>
      by_cases same : worker = acting
      · subst same
        refine .failed rfl looping ?_
        rw [setWorker_self]
      · exact elsewhere same (not_exists.mpr fun _ => Label.noConfusion)
  | @wake acting submitted waiting present =>
      by_cases same : worker = acting
      · subst same
        refine .woken (not_exists.mpr fun _ => Label.noConfusion) submitted
          waiting ?_ ?_
        · rw [setWorker_self, Worker.wake]
        · rw [setWorker_self, Worker.wake]
      · exact elsewhere same (not_exists.mpr fun _ => Label.noConfusion)
  | @dispatch acting generated cqe rest dispatching next =>
      have dispatched := dispatched_of_reachable reachable dispatching next
        generated
      by_cases same : worker = acting
      · subst same
        refine .dispatched dispatching ?_ (dispatched.queue next)
        exact (matched.dispatch_phase (started_of_phase dispatching
          Phase.noConfusion) next generated worker).trans dispatching
      · refine .unchanged ?_ (dispatched.others worker same)
        intro dispatches
        obtain ⟨_, ⟨⟩⟩ := dispatches
        exact same rfl
  | @endBatch acting dispatching empty =>
      by_cases same : worker = acting
      · subst same
        refine .ended (not_exists.mpr fun _ => Label.noConfusion) dispatching
          ?_ ?_
        · rw [setWorker_self]
        · rw [setWorker_self]
      · exact elsewhere same (not_exists.mpr fun _ => Label.noConfusion)
  | @complete acting index result contents completed =>
      by_cases same : worker = acting
      · subst same
        refine .other (not_exists.mpr fun _ => Label.noConfusion) ?_ ?_
        · rw [setWorker_self]
          exact (Worker.complete_same completed).1
        · rw [setWorker_self]
          exact Worker.complete_sq completed
      · exact elsewhere same (not_exists.mpr fun _ => Label.noConfusion)
  | cleanup swept =>
      exact .unchanged (not_exists.mpr fun _ => Label.noConfusion) rfl
  | tick =>
      exact .unchanged (not_exists.mpr fun _ => Label.noConfusion) rfl

theorem waiting_queue (reachable : serverSystem.Reachable server)
    {submitted : Nat}
    (waiting : (server.workers worker).phase = .waiting submitted) :
    (server.workers worker).ioUring.sq = [] := by
  have kept : ∀ worker submitted,
      (server.workers worker).phase = .waiting submitted →
      (server.workers worker).ioUring.sq = [] := by
    refine TransitionSystem.Invariant.of_reachable (fun server : Server =>
      ∀ worker submitted, (server.workers worker).phase = .waiting submitted →
        (server.workers worker).ioUring.sq = []) ?_ ?_ _ reachable
    · intro server start worker submitted waiting
      cases start
      cases waiting
    · intro before label after reached kept step worker submitted waiting
      cases queueStep_of_step reached step worker with
      | other undispatched phase queue =>
          rw [queue]
          exact kept worker submitted (phase.symm.trans waiting)
      | started undispatched unstarted phase =>
          cases phase.symm.trans waiting
      | submitted undispatched looping phase queue => exact queue
      | failed fails looping phase => cases phase.symm.trans waiting
      | woken undispatched returned waiting' phase queue =>
          have left := phase.symm.trans waiting
          split at left <;> cases left
      | ended undispatched dispatching phase queue =>
          cases phase.symm.trans waiting
      | dispatched dispatching phase queue => cases phase.symm.trans waiting
  exact kept worker submitted waiting

/-! A loop with nothing to submit. -/

def Server.Stalled (server : Server) (worker : WorkerId) : Prop :=
  (server.workers worker).ioUring.sq = [] ∧
    ((server.workers worker).phase = .looping ∨
      (server.workers worker).phase = .waiting 0)

/-- No run without a failing `submitAndWait` dispatches anything. -/
def Server.DispatchesNoMore (server : Server) (worker : WorkerId) : Prop :=
  ∀ history last, serverSystem.Execution server history last →
    (∀ taken ∈ history, taken.2 ≠ .submitFails worker) →
    ∀ taken ∈ history, ¬ taken.2.Dispatches worker

theorem Server.Stalled.step (stalled : before.Stalled worker)
    (step : QueueStep before label after worker)
    (works : label ≠ .submitFails worker) :
    ¬ label.Dispatches worker ∧ after.Stalled worker := by
  obtain ⟨nothing, place⟩ := stalled
  cases step with
  | other undispatched phase queue =>
      refine ⟨undispatched, queue.trans nothing, ?_⟩
      rw [phase]
      exact place
  | started undispatched unstarted phase =>
      rw [unstarted] at place
      rcases place with looping | waiting
      · cases looping
      · cases waiting
  | submitted undispatched looping phase queue =>
      rw [nothing] at phase
      exact ⟨undispatched, queue, .inr phase⟩
  | failed fails looping phase => exact absurd fails works
  | woken undispatched submitted waiting phase queue =>
      rw [waiting] at place
      rcases place with looping | none
      · cases looping
      · cases none
        exact ⟨undispatched, queue.trans nothing, .inl phase⟩
  | ended undispatched dispatching phase queue =>
      exact ⟨undispatched, queue.trans nothing, .inl phase⟩
  | dispatched dispatching phase queue =>
      rw [dispatching] at place
      rcases place with looping | waiting
      · cases looping
      · cases waiting

theorem Server.Stalled.forever (stalled : server.Stalled worker)
    (reachable : serverSystem.Reachable server) :
    server.DispatchesNoMore worker := by
  intro history last run works
  have stays : (∀ taken ∈ history, ¬ taken.2.Dispatches worker) ∧
      last.Stalled worker := by
    induction run with
    | refl => exact ⟨nofun, stalled⟩
    | @snoc last next history label run step induction =>
        obtain ⟨none, stays⟩ := induction fun taken member =>
          works taken (List.mem_append_left _ member)
        obtain ⟨undispatched, stays'⟩ := stays.step
          (queueStep_of_step (reachable.extend run) step worker)
          (works (last, label) (by simp))
        refine ⟨fun taken member => ?_, stays'⟩
        rcases List.mem_append.mp member with earlier | here
        · exact none taken earlier
        · rw [List.mem_singleton.mp here]
          exact undispatched
  exact stays.1

theorem Worker.completable {contents : Worker} {index : Nat}
    {request : Request}
    (found : contents.ioUring.inflight[index]? = some request) :
    ∃ result next, contents.complete index result = some next := by
  have answers : ∃ result, (contents.complete index result).isSome := by
    obtain ⟨operation, rawFd, userData⟩ := request
    cases operation with
    | multishotAccept =>
        refine ⟨.accepted 0 true, ?_⟩
        rw [Worker.complete, found]
        rfl
    | recv =>
        refine ⟨.ended false, ?_⟩
        rw [Worker.complete, found]
        rfl
    | send buf =>
        refine ⟨.sent 0, ?_⟩
        rw [Worker.complete, found]
        simp
  obtain ⟨result, answered⟩ := answers
  obtain ⟨next, completed⟩ := Option.isSome_iff_exists.mp answered
  exact ⟨result, next, completed⟩

/-- A worker that submits something can dispatch again. -/
theorem dispatches_again (reachable : serverSystem.Reachable server)
    (looping : (server.workers worker).phase = .looping)
    (queued : (server.workers worker).ioUring.sq ≠ []) :
    ¬ server.DispatchesNoMore worker := by
  have healthy : ∀ {server}, serverSystem.Reachable server →
      server.faulted = false := fun reachable =>
    (sessionsKept_of_reachable reachable).healthy
  obtain ⟨request, rest, isQueue⟩ := List.exists_cons_of_ne_nil queued
  let submitted := server.setWorker worker (server.workers worker).submit
  have submit : server.step (.submit worker) = some submitted :=
    (Stepped.submit looping).step (healthy reachable)
  have entered : (submitted.workers worker) =
      (server.workers worker).submit := setWorker_self _
  have inflight : (submitted.workers worker).ioUring.inflight[
      (server.workers worker).ioUring.inflight.length]? = some request := by
    rw [entered, Worker.submit, isQueue]
    simp
  obtain ⟨result, contents, completed⟩ := Worker.completable inflight
  have reached := reachable.step submit
  have complete := (Stepped.complete completed).step (healthy reached)
  obtain ⟨phase, -, -, cqe, posted⟩ := Worker.complete_same completed
  let answered := submitted.setWorker worker contents
  have here : answered.workers worker = contents := setWorker_self _
  have waiting : (answered.workers worker).phase =
      .waiting (server.workers worker).ioUring.sq.length := by
    rw [here, phase, entered]
    rfl
  have present : (answered.workers worker).ioUring.cq ≠ [] := by
    rw [here, posted]
    simp
  have reached' := reached.step complete
  have wake := (Stepped.wake waiting present).step (healthy reached')
  let woken := answered.setWorker worker ((answered.workers worker).wake
    (server.workers worker).ioUring.sq.length)
  have awake : woken.workers worker = (answered.workers worker).wake
      (server.workers worker).ioUring.sq.length := setWorker_self _
  have dispatching : (woken.workers worker).phase = .dispatching := by
    rw [awake, Worker.wake, isQueue]
    rfl
  have present' : (woken.workers worker).ioUring.cq ≠ [] := by
    rw [awake]
    exact present
  obtain ⟨last, dispatch⟩ := Option.isSome_iff_exists.mp
    (dispatch_enabled (reached'.step wake) dispatching present' "")
  intro noMore
  have run : serverSystem.Execution server _ last :=
    (((TransitionSystem.Execution.refl.snoc submit).snoc complete).snoc
      wake).snoc dispatch
  exact noMore _ _ run (by simp) (woken, .dispatch worker "")
    (List.mem_append_right _ (.head _)) ⟨"", rfl⟩

/-- While the worker does not come back to the head of its loop, its queue
stays empty just as long as nothing makes a coroutine receive. -/
theorem iteration_queue (reachable : serverSystem.Reachable first)
    {submitted : Nat}
    (waiting : (first.workers worker).phase = .waiting submitted)
    (run : serverSystem.Execution first history last)
    (within : ∀ earlier ∈ history,
      (earlier.1.workers worker).phase ≠ .looping) :
    (last.workers worker).phase ≠ .notStarted ∧
      ((last.workers worker).ioUring.sq = [] ↔
        ∀ taken ∈ history, ¬ taken.1.MakesReceive worker taken.2) := by
  induction run with
  | refl =>
      refine ⟨by rw [waiting]; exact Phase.noConfusion, ?_⟩
      exact iff_of_true (waiting_queue reachable waiting) nofun
  | @snoc last next history label run step induction =>
      obtain ⟨started, queue⟩ := induction fun earlier member =>
        within earlier (List.mem_append_left _ member)
      have inside := within (last, label) (by simp)
      have split : (∀ taken ∈ history ++ [(last, label)],
          ¬ taken.1.MakesReceive worker taken.2) ↔
          (last.workers worker).ioUring.sq = [] ∧
            ¬ last.MakesReceive worker label := by
        rw [List.forall_mem_append, List.forall_mem_singleton, queue]
      rw [split]
      have idle : ¬ label.Dispatches worker →
          ((last.workers worker).ioUring.sq = [] ↔
            (last.workers worker).ioUring.sq = [] ∧
              ¬ last.MakesReceive worker label) := fun undispatched =>
        (and_iff_left fun receives => undispatched receives.1).symm
      cases queueStep_of_step (reachable.extend run) step worker with
      | other undispatched phase same =>
          rw [phase, same]
          exact ⟨started, idle undispatched⟩
      | started undispatched unstarted => exact absurd unstarted started
      | submitted undispatched looping => exact absurd looping inside
      | failed fails looping => exact absurd looping inside
      | woken undispatched returned waiting phase same =>
          rw [same]
          refine ⟨?_, idle undispatched⟩
          rw [phase]
          split
          · exact Phase.noConfusion
          · exact Phase.noConfusion
      | ended undispatched dispatching phase same =>
          rw [phase, same]
          exact ⟨Phase.noConfusion, idle undispatched⟩
      | dispatched dispatching phase same =>
          rw [phase]
          exact ⟨Phase.noConfusion, same⟩

/-- An iteration that makes no coroutine receive is a worker's last one: unless
a `submitAndWait` fails, it dispatches nothing any more. After any other it
can. -/
theorem iteration_stalls_iff (reachable : serverSystem.Reachable first)
    {submitted : Nat}
    (waiting : (first.workers worker).phase = .waiting submitted)
    (run : serverSystem.Execution first history last)
    (within : ∀ earlier ∈ history,
      (earlier.1.workers worker).phase ≠ .looping)
    (looping : (last.workers worker).phase = .looping) :
    last.DispatchesNoMore worker ↔
      ∀ taken ∈ history, ¬ taken.1.MakesReceive worker taken.2 := by
  obtain ⟨-, queue⟩ := iteration_queue reachable waiting run within
  have reached := reachable.extend run
  rw [← queue]
  constructor
  · intro noMore
    exact not_not.mp fun queued =>
      dispatches_again reached looping queued noMore
  · intro nothing
    have stalled : last.Stalled worker := ⟨nothing, .inl looping⟩
    exact stalled.forever reached

/-- A worker waits with the receive of its only client submitted. -/
def onlyClient : List Label :=
  [.start 0 ⟨0, none, 0, some 3, 0⟩, .submit 0,
    .complete 0 0 (.accepted 7 true), .wake 0, .dispatch 0 "id", .endBatch 0,
    .submit 0]

def onlyClientLeaves : List Label :=
  [.complete 0 1 (.ended false), .wake 0, .dispatch 0 "", .endBatch 0]

theorem only_client_leaves_stalls :
    ∃ first last, TransitionSystem.runLabels Server.step {} onlyClient =
        some first ∧
      TransitionSystem.runLabels Server.step first onlyClientLeaves =
        some last ∧ last.DispatchesNoMore 0 := by
  have run : ∃ first waiting woken dispatching dispatched last,
      TransitionSystem.runLabels Server.step {} onlyClient = some first ∧
      TransitionSystem.runLabels Server.step first onlyClientLeaves =
        some last ∧
      TransitionSystem.traceLabels Server.step first onlyClientLeaves =
        [(waiting, .complete 0 1 (.ended false)), (woken, .wake 0),
          (dispatching, .dispatch 0 ""), (dispatched, .endBatch 0)] ∧
      (first.workers 0).phase = .waiting 1 ∧
      (waiting.workers 0).phase = .waiting 1 ∧
      (woken.workers 0).phase = .waiting 1 ∧
      (dispatching.workers 0).phase = .dispatching ∧
      (dispatched.workers 0).phase = .dispatching ∧
      (last.workers 0).phase = .looping ∧
      (dispatching.workers 0).ioUring.cq =
        [⟨some (.recvAwaiter 3 .awaited), 0, 0⟩] :=
    ⟨_, _, _, _, _, _, rfl, rfl, rfl, rfl, rfl, rfl, rfl, rfl, rfl, rfl⟩
  obtain ⟨first, waiting, woken, dispatching, dispatched, last, started, run,
    trace, phase, first', second, third, fourth, looping, next⟩ := run
  have reachable : serverSystem.Reachable first :=
    .runLabels (.initial rfl) started
  have execution : serverSystem.Execution first _ last := .runLabels run
  rw [trace] at execution
  refine ⟨first, last, started, run,
    (iteration_stalls_iff reachable phase execution ?_ looping).mpr ?_⟩
  · simp [first', second, third, fourth]
  · simp [MakesReceive, Label.Dispatches, next, Cqe.Receives]

end CoUring
