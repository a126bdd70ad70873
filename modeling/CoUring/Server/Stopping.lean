import CoUring.Server.GameServer

namespace CoUring

open Foundation

/-! What becomes of the worker threads when `stop` is called. -/

abbrev stoppingSystem :
    TransitionSystem (GameServer EventLoops) (GameServerLabel EventLoopLabel) :=
  gameServerSystem eventLoopThreads

def EventLoopLabel.begins : EventLoopLabel → Option WorkerId
  | .server (.submit worker) => some worker
  | .server (.submitFails worker) => some worker
  | _ => none

/-- Once `running_` is false no worker that has finished an iteration starts
another one. -/
def WorkersHalt (workerCount : Nat) : Prop :=
  ∀ history last, stoppingSystem.Execution
      (.construct eventLoopThreads workerCount) history last →
    ∀ taken ∈ history, taken.1.running = false →
    ∀ label worker, taken.2 = .worker label → label.begins = some worker →
    taken.1.workers.iterations worker = 0

/-- Then every worker thread can reach the end of `worker_thread_func`. -/
def WorkersReturn (workerCount : Nat) : Prop :=
  ∀ history last, stoppingSystem.Execution
      (.construct eventLoopThreads workerCount) history last →
    last.running = false → ∀ worker, worker < last.started →
    ∃ more final, stoppingSystem.Execution last more final ∧
      final.workers.returned worker = true

/-- A `stop` that waits for the threads can return. -/
def JoinsComplete (workerCount : Nat) : Prop :=
  ∀ history last, stoppingSystem.Execution
      (.construct eventLoopThreads workerCount) history last →
    ∀ caller index, last.callers caller = .stopJoin index →
    ∃ more final, stoppingSystem.Execution last more final ∧
      final.callers caller = .idle

structure StopStopsWorkers (workerCount : Nat) : Prop where
  halt : WorkersHalt workerCount
  reach : WorkersReturn workerCount
  complete : JoinsComplete workerCount

namespace GameServer

variable {server before after first last : GameServer EventLoops}
  {label : GameServerLabel EventLoopLabel} {caller other : CallerId}
  {history : List (GameServer EventLoops × GameServerLabel EventLoopLabel)}

/-! Without workers there is nothing to stop. -/

structure Workerless (server : GameServer EventLoops) : Prop where
  workerCount : server.workerCount = 0
  started : server.started = 0
  workerThreads : server.workerThreads = []
  alive : server.terminated = false

theorem Workerless.step (workerless : Workerless before)
    (stepped : Stepped eventLoopThreads before label after) :
    Workerless after := by
  obtain ⟨workerCount, started, workerThreads, alive⟩ := workerless
  cases stepped with
  | emplace here below =>
      rw [workerCount] at below
      exact absurd below (Nat.not_lt_zero _)
  | join here found joinable returned =>
      rw [workerThreads] at found
      cases found
  | @clear caller index here past =>
      have cleared : before.clearWorkers =
          { before with workerThreads := [] } := by
        rw [clearWorkers, workerThreads]
        rfl
      rw [cleared]
      exact ⟨workerCount, started, rfl, alive⟩
  | startRefused | startPasses | stopRefused | stopPasses | storeTrue
  | startReturns | storeFalse | skip | worker =>
      exact ⟨workerCount, started, workerThreads, alive⟩

theorem workerless_of_run
    (run : stoppingSystem.Execution (construct eventLoopThreads 0)
      history last) :
    ∀ server ∈ TransitionSystem.visited history last, Workerless server :=
  run.forall_visited ⟨rfl, rfl, rfl, rfl⟩ fun _ _ _ workerless step =>
    Workerless.step workerless (step_cases step).2

theorem begins_runner {label : EventLoopLabel} {worker : WorkerId}
    (begins : label.begins = some worker) : label.runner = some worker := by
  unfold EventLoopLabel.begins at begins
  split at begins
  · exact begins
  · exact begins
  · cases begins

theorem stops_without_workers : StopStopsWorkers 0 := by
  refine ⟨?_, ?_, ?_⟩
  · intro history last run taken member _ label worker isLabel begins
    obtain ⟨next, step⟩ := run.stepped member
    rw [isLabel] at step
    have workerless := workerless_of_run run _
      (TransitionSystem.mem_visited member)
    cases (step_cases step).2 with
    | worker isStarted stepped =>
        have below := isStarted worker (begins_runner begins)
        rw [workerless.started] at below
        exact absurd below (Nat.not_lt_zero _)
  · intro history last run _ worker below
    have workerless := workerless_of_run run _
      (TransitionSystem.last_mem_visited history last)
    rw [workerless.started] at below
    exact absurd below (Nat.not_lt_zero _)
  · intro history last run caller index here
    have workerless := workerless_of_run run _
      (TransitionSystem.last_mem_visited history last)
    have step : last.step eventLoopThreads (.advance caller) =
        some (last.clearWorkers.returnFrom caller (.stop true)) := by
      rw [GameServer.step, if_neg (by simp [workerless.alive]), perform,
        advance, here]
      simp only [workerless.workerThreads, List.getElem?_nil]
    exact ⟨_, _, .snoc .refl step, Function.update_self ..⟩

theorem clearWorkers_workers :
    server.clearWorkers.workers = server.workers := by
  rw [clearWorkers]
  split
  · rfl
  · rfl

/-- The workers of a `GameServer` are in a state that the server by itself can
reach. -/
theorem workers_reachable (reachable : stoppingSystem.Reachable server) :
    serverSystem.Reachable server.workers.server := by
  refine TransitionSystem.Invariant.of_reachable
    (fun server => serverSystem.Reachable server.workers.server) ?_ ?_ _
    reachable
  · rintro _ ⟨workerCount, rfl⟩
    exact .initial rfl
  · intro before label after _ earlier step
    cases (step_cases step).2 with
    | @worker label workers isStarted stepped =>
        cases label with
        | server label =>
            obtain ⟨server, taken, rfl⟩ := Option.map_eq_some_iff.mp stepped
            exact earlier.step taken
        | leave worker =>
            obtain ⟨⟨-, left⟩, -⟩ :=
              Option.ite_none_right_eq_some.mp stepped
            cases left
    | clear here past =>
        rw [← clearWorkers_workers] at earlier
        exact earlier
    | _ => exact earlier

/-! No worker ever leaves its event loop. -/

theorem eventLoops_returned {loops next : EventLoops}
    {label : EventLoopLabel} (step : loops.step label = some next) :
    next.returned = loops.returned := by
  cases label with
  | server label =>
      obtain ⟨server, -, rfl⟩ := Option.map_eq_some_iff.mp step
      rfl
  | leave worker =>
      obtain ⟨⟨-, left⟩, -⟩ := Option.ite_none_right_eq_some.mp step
      cases left

theorem no_worker_returns (reachable : stoppingSystem.Reachable server)
    (worker : WorkerId) : server.workers.returned worker = false := by
  refine TransitionSystem.Invariant.of_reachable
    (fun server => server.workers.returned worker = false) ?_ ?_ _ reachable
  · rintro _ ⟨workerCount, rfl⟩
    rfl
  · intro before label after reached unreturned step
    cases (step_cases step).2 with
    | worker isStarted stepped =>
        exact (congrFun (eventLoops_returned stepped) worker).trans
          unreturned
    | clear here past =>
        rw [← clearWorkers_workers] at unreturned
        exact unreturned
    | _ => exact unreturned

structure Joining (server : GameServer EventLoops) (caller : CallerId)
    (index : Nat) : Prop where
  here : server.callers caller = .stopJoin index
  joinable : ∃ worker, server.workerThreads[index]? = some ⟨worker, true⟩

theorem Joining.moved {index : Nat} {point : CallPoint}
    (joining : Joining before caller index) (different : caller ≠ other)
    (moved : after.callers = Function.update before.callers other point)
    (threads : ∀ thread, before.workerThreads[index]? = some thread →
      after.workerThreads[index]? = some thread) :
    Joining after caller index := by
  obtain ⟨here, worker, joinable⟩ := joining
  refine ⟨?_, worker, threads _ joinable⟩
  rw [moved, Function.update_of_ne different]
  exact here

theorem Joining.step {index : Nat} (joining : Joining before caller index)
    (reachable : stoppingSystem.Reachable before)
    (stepped : Stepped eventLoopThreads before label after) :
    Joining after caller index := by
  have apart : ∀ {other point}, before.callers other = point →
      point ≠ .stopJoin index → caller ≠ other := by
    rintro other point point_eq different rfl
    exact different (point_eq.symm.trans joining.here)
  obtain ⟨worker, joinable⟩ := joining.joinable
  cases stepped with
  | startRefused idle running =>
      exact joining.moved (apart idle nofun) rfl fun _ found => found
  | startPasses idle stopped =>
      exact joining.moved (apart idle nofun) rfl fun _ found => found
  | stopRefused idle stopped =>
      exact joining.moved (apart idle nofun) rfl fun _ found => found
  | stopPasses idle running =>
      exact joining.moved (apart idle nofun) rfl fun _ found => found
  | storeTrue here =>
      exact joining.moved (apart here nofun) rfl fun _ found => found
  | emplace here below =>
      refine joining.moved (apart here nofun) rfl fun thread found => ?_
      obtain ⟨inside, -⟩ := List.getElem?_eq_some_iff.mp found
      exact (List.getElem?_append_left inside).trans found
  | startReturns here all =>
      exact joining.moved (apart here nofun) rfl fun _ found => found
  | storeFalse here =>
      exact joining.moved (apart here nofun) rfl fun _ found => found
  | skip here found joined =>
      refine joining.moved (apart here ?_) rfl fun _ found => found
      rintro ⟨rfl⟩
      cases found.symm.trans joinable
      cases joined
  | join here found isJoinable returned =>
      have unreturned := no_worker_returns reachable
      cases returned.symm.trans (unreturned _)
  | clear here past =>
      obtain ⟨inside, -⟩ := List.getElem?_eq_some_iff.mp joinable
      have terminates : before.clearWorkers =
          { before with terminated := true } :=
        if_pos (List.any_eq_true.mpr
          ⟨_, List.mem_of_getElem? joinable, rfl⟩)
      rw [terminates]
      refine joining.moved (apart here ?_) rfl fun _ found => found
      rintro ⟨rfl⟩
      exact Nat.not_lt_of_le past inside
  | worker isStarted stepped => exact ⟨joining.here, joining.joinable⟩

theorem Joining.forever {index : Nat} (joining : Joining first caller index)
    (reachable : stoppingSystem.Reachable first)
    (run : stoppingSystem.Execution first history last) :
    Joining last caller index := by
  induction run with
  | refl => exact joining
  | snoc run step induction =>
      exact induction.step (reachable.extend run) (step_cases step).2

theorem step_worker {label : EventLoopLabel} {loops : EventLoops}
    (alive : server.terminated = false)
    (stepped : server.workers.step label = some loops)
    (isStarted : ∀ worker ∈ label.runner, worker < server.started) :
    server.step eventLoopThreads (.worker label) =
      some { server with workers := loops } := by
  rw [GameServer.step, if_neg (by simp [alive])]
  refine (if_pos isStarted).trans ?_
  exact congrArg (Option.map _) stepped

theorem run_workers {labels : List EventLoopLabel} {loops : EventLoops}
    (alive : server.terminated = false)
    (run : TransitionSystem.runLabels EventLoops.step server.workers labels =
      some loops)
    (isStarted : ∀ label ∈ labels, ∀ worker ∈ label.runner,
      worker < server.started) :
    TransitionSystem.runLabels (GameServer.step eventLoopThreads) server
      (labels.map .worker) = some { server with workers := loops } := by
  induction labels generalizing server with
  | nil =>
      cases run
      rfl
  | cons label rest induction =>
      obtain ⟨middle, stepped, run⟩ := Option.bind_eq_some_iff.mp run
      refine Option.bind_eq_some_iff.mpr
        ⟨_, step_worker alive stepped (isStarted label (.head _)), ?_⟩
      exact induction alive run fun label member =>
        isStarted label (.tail _ member)

def firstIteration : List EventLoopLabel :=
  [.server (.start 0 ⟨0, none, 0, some 3, 0⟩), .server (.submit 0),
    .server (.complete 0 0 (.accepted 7 true)), .server (.wake 0),
    .server (.dispatch 0 "first"), .server (.endBatch 0)]

theorem first_iteration_finishes :
    ∃ loops next, TransitionSystem.runLabels EventLoops.step {}
        firstIteration = some loops ∧
      loops.iterations 0 = 1 ∧
      loops.step (.server (.submit 0)) = some next := by
  have run : (TransitionSystem.runLabels EventLoops.step {}
      firstIteration).any (fun loops => loops.iterations 0 = 1 ∧
        (loops.step (.server (.submit 0))).isSome) = true := by
    decide +kernel
  obtain ⟨loops, run, finished⟩ := (Option.any_eq_true _ _).mp run
  obtain ⟨one, enabled⟩ := of_decide_eq_true finished
  obtain ⟨next, step⟩ := Option.isSome_iff_exists.mp enabled
  exact ⟨loops, next, run, one, step⟩

/-- The first worker is started and finishes an iteration; then `stop` is
called. -/
theorem stopped_after_first_worker (more : Nat) :
    ∃ history last final, stoppingSystem.Execution
        (construct eventLoopThreads (more + 1)) history last ∧
      last.running = false ∧ last.started = 1 ∧
      last.workers.iterations 0 = 1 ∧ Joining last 1 0 ∧
      last.step eventLoopThreads (.worker (.server (.submit 0))) =
        some final := by
  obtain ⟨loops, next, iterated, one, enabled⟩ := first_iteration_finishes
  have started : ∃ server, TransitionSystem.runLabels
      (GameServer.step eventLoopThreads)
      (construct eventLoopThreads (more + 1))
        [.start 0, .advance 0, .advance 0] = some server ∧
      server.workers = {} ∧ server.started = 1 ∧
      server.terminated = false ∧ server.running = true ∧
      server.callers 1 = .idle ∧ server.workerThreads = [⟨0, true⟩] :=
    ⟨_, rfl, rfl, rfl, rfl, rfl, rfl, rfl⟩
  obtain ⟨server, starts, fresh, isOne, alive, running, idle, threads⟩ :=
    started
  have works := run_workers alive (fresh ▸ iterated) (by
    rw [isOne]
    decide)
  let working : GameServer EventLoops := { server with workers := loops }
  let stopped : GameServer EventLoops :=
    { working.moveTo 1 .stopStore with running := false }.moveTo 1
      (.stopJoin 0)
  have stops : TransitionSystem.runLabels (GameServer.step eventLoopThreads)
      working [.stop 1, .advance 1] = some stopped := by
    simp [working, stopped, TransitionSystem.runLabels, GameServer.step,
      perform, advance, alive, running, idle, moveTo]
  have first : stoppingSystem.Execution _ _ server := .runLabels starts
  have second : stoppingSystem.Execution _ _ working := .runLabels works
  have third : stoppingSystem.Execution _ _ stopped := .runLabels stops
  have goesOn : stopped.step eventLoopThreads
      (.worker (.server (.submit 0))) =
        some { stopped with workers := next } :=
    step_worker alive enabled fun worker isZero => by
      cases isZero
      exact Nat.lt_of_lt_of_eq Nat.one_pos isOne.symm
  refine ⟨_, _, _, (first.trans second).trans third, rfl, isOne, one,
    ⟨moveTo_self, 0, ?_⟩, goesOn⟩
  exact congrArg (·[0]?) threads

theorem nothing_stops (more : Nat) :
    ¬ WorkersHalt (more + 1) ∧ ¬ WorkersReturn (more + 1) ∧
      ¬ JoinsComplete (more + 1) := by
  obtain ⟨history, last, final, execution, stopped, one, finished, joining,
    step⟩ := stopped_after_first_worker more
  have reachable : stoppingSystem.Reachable last :=
    ⟨_, history, ⟨more + 1, rfl⟩, execution⟩
  refine ⟨fun halt => ?_, fun returns => ?_, fun completes => ?_⟩
  · have fresh := halt _ _ (execution.snoc step)
      (last, .worker (.server (.submit 0))) (by simp) stopped _ 0 rfl rfl
    rw [finished] at fresh
    cases fresh
  · obtain ⟨more, final, continued, returned⟩ :=
      returns _ last execution stopped 0 (by rw [one]; exact Nat.one_pos)
    have unreturned := no_worker_returns (reachable.extend continued) 0
    cases returned.symm.trans unreturned
  · obtain ⟨more, final, continued, idle⟩ :=
      completes _ last execution 1 0 joining.here
    have still := joining.forever reachable continued
    cases still.here.symm.trans idle

end GameServer

open GameServer

/-- `stop` stops the workers of a server that has none, and of no other. -/
theorem stop_stops_workers_iff (workerCount : Nat) :
    StopStopsWorkers workerCount ↔ workerCount = 0 := by
  constructor
  · intro stops
    cases workerCount with
    | zero => rfl
    | succ more => exact absurd stops.halt (nothing_stops more).1
  · rintro rfl
    exact stops_without_workers

/-- The server of `main` is started, and one of its workers accepts a client
and finishes its iteration; then `stop` is called. -/
def mainStops : List (GameServerLabel EventLoopLabel) :=
  [.start 0, .advance 0, .advance 0, .advance 0, .advance 0, .advance 0,
    .advance 0,
    .worker (.server (.start 0 ⟨0, none, 0, some 3, 0⟩)),
    .worker (.server (.submit 0)),
    .worker (.server (.complete 0 0 (.accepted 7 true))),
    .worker (.server (.wake 0)), .worker (.server (.dispatch 0 "first")),
    .worker (.server (.endBatch 0)), .stop 0, .advance 0]

theorem worker_goes_on : ¬ StopStopsWorkers 4 := by
  have run : (TransitionSystem.runLabels (GameServer.step eventLoopThreads)
      (construct eventLoopThreads 4) mainStops).any (fun last =>
        last.running = false ∧ last.workers.iterations 0 = 1 ∧
        (last.step eventLoopThreads
          (.worker (.server (.submit 0)))).isSome) = true := by
    decide +kernel
  obtain ⟨last, run, goesOn⟩ := (Option.any_eq_true _ _).mp run
  obtain ⟨stopped, finished, enabled⟩ := of_decide_eq_true goesOn
  obtain ⟨final, step⟩ := Option.isSome_iff_exists.mp enabled
  intro stops
  have execution : stoppingSystem.Execution (construct eventLoopThreads 4) _
      final := .snoc (.runLabels run) step
  have fresh := stops.halt _ _ execution
    (last, .worker (.server (.submit 0))) (by simp) stopped _ 0 rfl rfl
  rw [finished] at fresh
  cases fresh

end CoUring
