import CoUring.Server.Sessions
import Mathlib.Data.List.Infix

namespace CoUring

open Foundation Server

variable {server before after : Server} {worker other : WorkerId}

def Server.taken (server : Server) (worker : WorkerId) : List Cqe :=
  (server.workers worker).dispatched ++ (server.workers worker).ioUring.cq

theorem Server.taken_setWorker (contents : Worker)
    (completions : (server.workers worker).dispatched ++
        (server.workers worker).ioUring.cq <+:
      contents.dispatched ++ contents.ioUring.cq) :
    server.taken other <+: (server.setWorker worker contents).taken other :=
  setWorker_forall worker contents
    (fun other contents => server.taken other <+:
      contents.dispatched ++ contents.ioUring.cq)
    completions (fun _ => List.prefix_rfl) other

theorem Quiet.taken (quiet : Quiet before after) (worker : WorkerId) :
    after.taken worker = before.taken worker := by
  rw [Server.taken, Server.taken, (quiet.completions worker).1,
    (quiet.completions worker).2]

theorem RingsMatch.dispatch_taken (matched : RingsMatch server)
    {cqe : Cqe} {rest : List Cqe} (started : server.Started worker)
    (next : (server.workers worker).ioUring.cq = cqe :: rest)
    (generated : SessionId) (other : WorkerId) :
    ((server.setWorker worker ((server.workers worker).seen cqe
      rest)).dispatchCqe worker cqe generated).taken other =
        server.taken other := by
  obtain ⟨cq, dispatched⟩ :=
    matched.dispatch_completions started next generated other
  rw [Server.taken, cq, dispatched]
  refine setWorker_forall worker ((server.workers worker).seen cqe rest)
    (fun other contents => contents.dispatched ++ contents.ioUring.cq =
      server.taken other) ?_ (fun _ => rfl) other
  rw [Server.taken, next]
  simp [Worker.seen]

/-- No completion is ever forgotten or put before another one. -/
theorem Server.Stepped.taken (matched : RingsMatch before) {label : Label}
    (stepped : Stepped before label after) (other : WorkerId) :
    before.taken other <+: after.taken other := by
  cases stepped with
  | @start worker outcome unstarted =>
      rw [(Quiet.startWorker outcome).taken]
      obtain ⟨-, ring, dispatched⟩ := initStages_same outcome
        { before.workers worker with phase := .looping }
      refine taken_setWorker _ ?_
      rw [ring, dispatched]
  | submit looping => exact taken_setWorker _ List.prefix_rfl
  | submitFails looping => exact taken_setWorker _ List.prefix_rfl
  | wake waiting present => exact taken_setWorker _ List.prefix_rfl
  | endBatch dispatching empty => exact taken_setWorker _ List.prefix_rfl
  | dispatch dispatching next =>
      rw [matched.dispatch_taken
        (started_of_phase dispatching Phase.noConfusion) next]
  | complete completed =>
      obtain ⟨-, -, dispatched, cqe, posted⟩ := Worker.complete_same completed
      refine taken_setWorker _ ?_
      rw [dispatched, posted, ← List.append_assoc]
      exact List.prefix_append _ _
  | cleanup swept => exact List.prefix_rfl
  | tick => exact List.prefix_rfl

inductive PhaseStep (before after : Server) (worker : WorkerId) : Prop
  | same (phase : (after.workers worker).phase =
      (before.workers worker).phase)
  | started (phase : (before.workers worker).phase = .notStarted)
  | submitted (phase : (before.workers worker).phase = .looping)
  | woken (submitted : Nat)
      (phase : (before.workers worker).phase = .waiting submitted)
      (next : (after.workers worker).phase =
        if submitted = 0 then .looping else .dispatching)
      (completions : after.taken worker = before.taken worker)
  | ended (phase : (before.workers worker).phase = .dispatching)
      (next : (after.workers worker).phase = .looping)
      (empty : (after.workers worker).ioUring.cq = [])

theorem PhaseStep.setWorker {contents : Worker}
    (here : PhaseStep server (server.setWorker worker contents) worker) :
    PhaseStep server (server.setWorker worker contents) other := by
  by_cases same : other = worker
  · subst same
    exact here
  · exact .same (by rw [setWorker_other _ same])

theorem Server.Stepped.phase (matched : RingsMatch before) {label : Label}
    (stepped : Stepped before label after) (other : WorkerId) :
    PhaseStep before after other := by
  cases stepped with
  | @start worker outcome unstarted =>
      by_cases same : other = worker
      · subst same
        exact .started unstarted
      · refine .same ?_
        rw [(Quiet.startWorker outcome).phase, setWorker_other _ same]
  | submit looping => exact .setWorker (.submitted looping)
  | submitFails looping => exact .setWorker (.submitted looping)
  | @wake worker submitted waiting present =>
      refine .setWorker (.woken submitted waiting ?_ ?_)
      · rw [setWorker_self, Worker.wake]
      · rw [Server.taken, Server.taken, setWorker_self, Worker.wake]
  | endBatch dispatching empty =>
      refine .setWorker (.ended dispatching ?_ ?_)
      · rw [setWorker_self]
      · rw [setWorker_self]
        exact empty
  | dispatch dispatching next =>
      exact .same (matched.dispatch_phase
        (started_of_phase dispatching Phase.noConfusion) next _ other)
  | complete completed =>
      refine .setWorker (.same ?_)
      rw [setWorker_self]
      exact (Worker.complete_same completed).1
  | cleanup swept => exact .same rfl
  | tick => exact .same rfl

/-! One iteration of the event loop, from the return of `submitAndWait` to the
head of the loop. -/

/-- The iteration dispatches every completion that is present now: none is left
when the loop starts over, and until then the next one can be dispatched. -/
structure IterationDispatches (server : Server) (worker : WorkerId) :
    Prop where
  all : ∀ history last, serverSystem.Execution server history last →
    (∀ earlier ∈ history, (earlier.1.workers worker).phase ≠ .looping) →
    (last.workers worker).phase = .looping →
    server.taken worker <+: (last.workers worker).dispatched
  next : ∀ history last, serverSystem.Execution server history last →
    (∀ earlier ∈ history, (earlier.1.workers worker).phase ≠ .looping) →
    (last.workers worker).phase = .dispatching →
    (last.workers worker).ioUring.cq ≠ [] →
    ∀ generated, (last.step (.dispatch worker generated)).isSome

def Spins (server : Server) (worker : WorkerId) : Prop :=
  ∃ waiting, server.step (.submit worker) = some waiting ∧
    waiting.step (.wake worker) = some server

theorem dispatch_enabled (reachable : serverSystem.Reachable server)
    (dispatching : (server.workers worker).phase = .dispatching)
    (present : (server.workers worker).ioUring.cq ≠ [])
    (generated : SessionId) :
    (server.step (.dispatch worker generated)).isSome := by
  obtain ⟨cqe, rest, next⟩ := List.exists_cons_of_ne_nil present
  have healthy := (sessionsKept_of_reachable reachable).healthy
  rw [(Stepped.dispatch dispatching next).step healthy]
  rfl

/-- Within one iteration no completion is lost, and the iteration ends with
none left unless it submitted nothing. -/
theorem iteration_progress {first last : Server}
    {history : List (Server × Label)} {submitted : Nat}
    (reachable : serverSystem.Reachable first)
    (waiting : (first.workers worker).phase = .waiting submitted)
    (run : serverSystem.Execution first history last)
    (within : ∀ earlier ∈ history,
      (earlier.1.workers worker).phase ≠ .looping) :
    first.taken worker <+: last.taken worker ∧
      ((last.workers worker).phase = .waiting submitted ∨
        (last.workers worker).phase = .dispatching ∨
        (last.workers worker).phase = .looping ∧
          (submitted ≠ 0 → (last.workers worker).ioUring.cq = [])) := by
  induction run with
  | refl => exact ⟨List.prefix_rfl, .inl waiting⟩
  | @snoc last next history label run step induction =>
      obtain ⟨grows, phase⟩ := induction fun earlier member =>
        within earlier (List.mem_append_left _ member)
      have notLooping := within (last, label) (by simp)
      have matched := ringsMatch_of_reachable (reachable.extend run)
      have stepped := (step_cases step).2
      refine ⟨grows.trans (stepped.taken matched worker), ?_⟩
      have inside : (last.workers worker).phase = .waiting submitted ∨
          (last.workers worker).phase = .dispatching :=
        phase.imp_right fun rest =>
          rest.resolve_right fun looping => notLooping looping.1
      cases stepped.phase matched worker with
      | same same =>
          rw [same]
          exact inside.imp_right .inl
      | started unstarted =>
          rw [unstarted] at inside
          simp at inside
      | submitted looping => exact absurd looping notLooping
      | woken returned waiting' next completions =>
          rw [waiting'] at inside
          simp only [Phase.waiting.injEq, reduceCtorEq, or_false] at inside
          subst inside
          by_cases nothing : returned = 0
          · rw [if_pos nothing] at next
            exact .inr (.inr ⟨next, fun some => absurd nothing some⟩)
          · rw [if_neg nothing] at next
            exact .inr (.inl next)
      | ended dispatching next empty =>
          exact .inr (.inr ⟨next, fun _ => empty⟩)

theorem iteration_dispatches (reachable : serverSystem.Reachable server)
    {submitted : Nat} (queued : submitted ≠ 0)
    (waiting : (server.workers worker).phase = .waiting submitted) :
    IterationDispatches server worker := by
  refine ⟨?_, ?_⟩
  · intro history last run within looping
    obtain ⟨grows, phase⟩ := iteration_progress reachable waiting run within
    rw [looping] at phase
    simp only [reduceCtorEq, true_and, false_or] at phase
    have all : last.taken worker = (last.workers worker).dispatched := by
      rw [Server.taken, phase queued, List.append_nil]
    rwa [all] at grows
  · intro history last run within dispatching present generated
    exact dispatch_enabled (reachable.extend run) dispatching present generated

theorem iteration_skips (reachable : serverSystem.Reachable server)
    (waiting : (server.workers worker).phase = .waiting 0)
    (present : (server.workers worker).ioUring.cq ≠ []) :
    ¬ IterationDispatches server worker := by
  intro iteration
  have healthy := (sessionsKept_of_reachable reachable).healthy
  have woken := (Stepped.wake waiting present).step healthy
  have run : serverSystem.Execution server ([] ++ [(server, .wake worker)])
      (server.setWorker worker ((server.workers worker).wake 0)) :=
    .snoc .refl woken
  have all := iteration.all _ _ run (by simp [waiting]) (by simp [Worker.wake])
  rw [setWorker_self] at all
  have short : ((server.workers worker).dispatched ++
      (server.workers worker).ioUring.cq).length ≤
        (server.workers worker).dispatched.length := all.length_le
  rw [List.length_append] at short
  exact present (List.eq_nil_of_length_eq_zero (by omega))

theorem Server.setWorker_setWorker (first second : Worker) :
    (server.setWorker worker first).setWorker worker second =
      server.setWorker worker second := by
  simp [setWorker]

theorem Server.setWorker_same :
    server.setWorker worker (server.workers worker) = server := by
  simp [setWorker]

theorem wake_cases (wake : before.step (.wake worker) = some after) :
    ∃ submitted, (before.workers worker).phase = .waiting submitted ∧
      (before.workers worker).ioUring.cq ≠ [] ∧
      after = before.setWorker worker
        ((before.workers worker).wake submitted) := by
  cases (step_cases wake).2 with
  | wake waiting present => exact ⟨_, waiting, present, rfl⟩

theorem spins_iff (reachable : serverSystem.Reachable server)
    (looping : (server.workers worker).phase = .looping) :
    Spins server worker ↔ (server.workers worker).ioUring.sq = [] ∧
      (server.workers worker).ioUring.cq ≠ [] := by
  have healthy := (sessionsKept_of_reachable reachable).healthy
  have entered := (Stepped.submit looping).step healthy
  constructor
  · rintro ⟨waiting, submit, wake⟩
    rw [entered] at submit
    obtain rfl := Option.some.inj submit
    obtain ⟨submitted, inside, present, same⟩ := wake_cases wake
    rw [setWorker_self] at inside present same
    have unchanged := congrArg (fun server : Server => server.workers worker)
      same
    rw [setWorker_self] at unchanged
    refine ⟨?_, present⟩
    rw [unchanged]
    rfl
  · rintro ⟨nothing, present⟩
    refine ⟨_, entered, ?_⟩
    have inside : ((server.setWorker worker
        (server.workers worker).submit).workers worker).phase =
          .waiting 0 := by
      rw [setWorker_self, Worker.submit, nothing]
      rfl
    have remains : ((server.setWorker worker
        (server.workers worker).submit).workers worker).ioUring.cq ≠ [] := by
      rw [setWorker_self]
      exact present
    have unchanged : (server.workers worker).submit.wake 0 =
        server.workers worker := by
      rw [Worker.wake, if_pos rfl, ← looping, Worker.submit, nothing,
        List.append_nil, ← nothing]
    rw [(Stepped.wake inside remains).step healthy, setWorker_setWorker,
      setWorker_self, unchanged, setWorker_same]

/-- `submitAndWait`, entered in one state, is about to return in another. -/
def WaitReturns (entering returning : Server) (worker : WorkerId) : Prop :=
  ∃ waiting history, entering.step (.submit worker) = some waiting ∧
    serverSystem.Execution waiting history returning ∧
    (∀ earlier ∈ history, (earlier.1.workers worker).phase ≠ .looping) ∧
    ∃ submitted, (returning.workers worker).phase = .waiting submitted

theorem submit_cases (submit : before.step (.submit worker) = some after) :
    (before.workers worker).phase = .looping ∧
      after = before.setWorker worker (before.workers worker).submit := by
  cases (step_cases submit).2 with
  | submit looping => exact ⟨looping, rfl⟩

theorem WaitReturns.submitted {returning : Server}
    (reachable : serverSystem.Reachable server)
    (returns : WaitReturns server returning worker) :
    (returning.workers worker).phase =
      .waiting (server.workers worker).ioUring.sq.length := by
  obtain ⟨waiting, history, submit, run, within, submitted, phase⟩ := returns
  obtain ⟨looping, rfl⟩ := submit_cases submit
  have entered := iteration_progress (reachable.step submit)
    (by rw [setWorker_self]; rfl) run within
  rw [phase] at entered
  simp only [Phase.waiting.injEq, reduceCtorEq, false_and, or_false] at entered
  rw [phase, entered.2]

theorem WaitReturns.reachable {returning : Server}
    (reachable : serverSystem.Reachable server)
    (returns : WaitReturns server returning worker) :
    serverSystem.Reachable returning := by
  obtain ⟨waiting, history, submit, run, -⟩ := returns
  exact (reachable.step submit).extend run

/-- What an iteration does with the completions it finds depends on whether
anything was queued when it began. -/
theorem eventLoop_dispatches_iff_queued
    (reachable : serverSystem.Reachable server) (worker : WorkerId) :
    (∀ returning, WaitReturns server returning worker →
      (returning.workers worker).ioUring.cq ≠ [] →
      (IterationDispatches returning worker ↔
        (server.workers worker).ioUring.sq ≠ [])) ∧
    ((server.workers worker).phase = .looping →
      (server.workers worker).ioUring.cq ≠ [] →
      (¬ Spins server worker ↔ (server.workers worker).ioUring.sq ≠ [])) := by
  refine ⟨?_, ?_⟩
  · intro returning returns present
    have submitted := returns.submitted reachable
    have later := returns.reachable reachable
    constructor
    · intro iteration nothing
      rw [nothing] at submitted
      exact iteration_skips later submitted present iteration
    · intro queued
      exact iteration_dispatches later
        (List.length_pos_iff.mpr queued).ne' submitted
  · intro looping present
    rw [not_iff_not, spins_iff reachable looping]
    exact and_iff_left present

/-- A client connects and leaves, and the next one finds a loop that only
spins. -/
def connectThenLeave : List Label :=
  [.start 0 ⟨0, none, 0, some 3, 0⟩, .submit 0,
    .complete 0 0 (.accepted 7 true), .wake 0, .dispatch 0 "first",
    .endBatch 0, .submit 0, .complete 0 1 (.ended false), .wake 0,
    .dispatch 0 "second", .endBatch 0, .complete 0 0 (.accepted 8 true)]

/-- Right after the connection its receive is queued, so the next iteration
dispatches. -/
theorem connect_dispatches :
    ∃ server, TransitionSystem.runLabels Server.step {}
        (connectThenLeave.take 6) = some server ∧
      ∀ returning, WaitReturns server returning 0 →
        (returning.workers 0).ioUring.cq ≠ [] →
        IterationDispatches returning 0 := by
  have run : ∃ server, TransitionSystem.runLabels Server.step {}
      (connectThenLeave.take 6) = some server ∧
      (server.workers 0).ioUring.sq ≠ [] := ⟨_, rfl, by decide⟩
  obtain ⟨server, run, queued⟩ := run
  have reachable : serverSystem.Reachable server :=
    .runLabels (.initial rfl) run
  exact ⟨server, run, fun returning returns present =>
    ((eventLoop_dispatches_iff_queued reachable 0).1 returning returns
      present).mpr queued⟩

theorem connect_then_leave_spins :
    ∃ server, TransitionSystem.runLabels Server.step {} connectThenLeave =
        some server ∧
      (server.workers 0).ioUring.cq ≠ [] ∧ Spins server 0 := by
  have run : ∃ server, TransitionSystem.runLabels Server.step {}
      connectThenLeave = some server ∧
      (server.workers 0).phase = .looping ∧
      (server.workers 0).ioUring.sq = [] ∧
      (server.workers 0).ioUring.cq ≠ [] := ⟨_, rfl, rfl, rfl, by simp⟩
  obtain ⟨server, run, looping, nothing, present⟩ := run
  have reachable : serverSystem.Reachable server :=
    .runLabels (.initial rfl) run
  exact ⟨server, run, present, (spins_iff reachable looping).mpr
    ⟨nothing, present⟩⟩

end CoUring
