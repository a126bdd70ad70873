import CoUring.Server.Owner
import CoUring.Server.Stopping

namespace CoUring

open Foundation

/-! `main`, with the signals and the worker threads around it. -/

inductive MainPoint
  | logging
  | starting
  | sleeping
  | stopping
  | unwinding
  | leaving (code : Nat)
  | exited (code : Nat)
  deriving DecidableEq, Repr

structure MainThread (State : Type) where
  owned : OwnedServer State
  point : MainPoint := .logging
  shutdownRequested : Bool := false

inductive MainLabel (Label : Type)
  | advance
  /-- `setLogFile` throws, or there is no thread for a worker. -/
  | fails
  | signal
  | worker (label : Label)
  deriving DecidableEq, Repr

section

variable {State Label : Type}

namespace MainThread

def workerCount : Nat := 4

def owns (threads : WorkerThreads State Label) (main : MainThread State)
    (label : OwnerLabel Label) (point : MainPoint) :
    Option (MainThread State) :=
  (main.owned.step threads label).map fun owned =>
    { main with owned := owned, point := point }

def inCall (main : MainThread State) : Bool :=
  main.owned.server.callers owner ≠ .idle

def advance (threads : WorkerThreads State Label) (main : MainThread State) :
    Option (MainThread State) :=
  match main.point with
  | .logging => main.owns threads .start .starting
  | .starting =>
      if main.inCall then main.owns threads .advance .starting
      else if main.owned.server.returns.head? = some (.start true) then
        some { main with point := .sleeping }
      else main.owns threads .destroy (.leaving 1)
  | .sleeping =>
      if main.shutdownRequested then main.owns threads .stop .stopping
      else some main
  | .stopping =>
      if main.inCall then main.owns threads .advance .stopping
      else main.owns threads .destroy (.leaving 0)
  | .unwinding => main.owns threads .destroy (.leaving 1)
  | .leaving code =>
      if main.owned.occupation = .destroyed then
        some { main with point := .exited code }
      else main.owns threads .advance (.leaving code)
  | .exited _ => none

def step (threads : WorkerThreads State Label) (main : MainThread State)
    (label : MainLabel Label) : Option (MainThread State) :=
  match label, main.point with
  | _, .exited _ => none
  | .advance, _ => main.advance threads
  | .fails, .logging => some { main with point := .exited 1 }
  | .fails, .starting => main.owns threads .threadFails .unwinding
  | .fails, _ => none
  | .signal, _ => some { main with shutdownRequested := true }
  | .worker label, point => main.owns threads (.worker label) point

end MainThread

def mainSystem (threads : WorkerThreads State Label) :
    TransitionSystem (MainThread State) (MainLabel Label) :=
  .ofFunction (fun main => main =
    { owned := { server := .construct threads MainThread.workerCount } })
    (MainThread.step threads)

namespace MainThread

variable {threads : WorkerThreads State Label}
  {main next : MainThread State} {label : MainLabel Label}

/-- What `main` makes of its server in one step, and where it is then. -/
inductive Uses (main : MainThread State) :
    MainLabel Label → OwnerLabel Label → MainPoint → Prop
  | start (here : main.point = .logging) : Uses main .advance .start .starting
  | goOn (here : main.point = .starting)
      (busy : main.owned.server.callers owner ≠ .idle) :
      Uses main .advance .advance .starting
  | refused (here : main.point = .starting)
      (idle : main.owned.server.callers owner = .idle)
      (lost : main.owned.server.returns.head? ≠ some (.start true)) :
      Uses main .advance .destroy (.leaving 1)
  | stop (here : main.point = .sleeping)
      (requested : main.shutdownRequested = true) :
      Uses main .advance .stop .stopping
  | join (here : main.point = .stopping)
      (busy : main.owned.server.callers owner ≠ .idle) :
      Uses main .advance .advance .stopping
  | stopped (here : main.point = .stopping)
      (idle : main.owned.server.callers owner = .idle) :
      Uses main .advance .destroy (.leaving 0)
  | unwind (here : main.point = .unwinding) :
      Uses main .advance .destroy (.leaving 1)
  | leave {code : Nat} (here : main.point = .leaving code)
      (left : main.owned.occupation ≠ .destroyed) :
      Uses main .advance .advance (.leaving code)
  | fails (here : main.point = .starting) :
      Uses main .fails .threadFails .unwinding
  | worker {label : Label} :
      Uses main (.worker label) (.worker label) main.point

inductive Stepped (threads : WorkerThreads State Label)
    (main : MainThread State) : MainLabel Label → MainThread State → Prop
  | uses {label : MainLabel Label} {use : OwnerLabel Label}
      {point : MainPoint} {owned : OwnedServer State}
      (uses : Uses main label use point)
      (stepped : main.owned.Stepped threads use owned) :
      Stepped threads main label { main with owned := owned, point := point }
  | won (here : main.point = .starting)
      (idle : main.owned.server.callers owner = .idle) :
      Stepped threads main .advance { main with point := .sleeping }
  | sleep (here : main.point = .sleeping) : Stepped threads main .advance main
  | exit {code : Nat} (here : main.point = .leaving code)
      (destroyed : main.owned.occupation = .destroyed) :
      Stepped threads main .advance { main with point := .exited code }
  | noLogFile (here : main.point = .logging) :
      Stepped threads main .fails { main with point := .exited 1 }
  | signal : Stepped threads main .signal { main with shutdownRequested := true }

theorem owns_cases {use : OwnerLabel Label} {point : MainPoint}
    (uses : Uses main label use point)
    (owns : main.owns threads use point = some next) :
    Stepped threads main label next := by
  obtain ⟨owned, step, rfl⟩ := Option.map_eq_some_iff.mp owns
  exact .uses uses (OwnedServer.step_cases step).2

theorem inCall_iff :
    main.inCall = true ↔ main.owned.server.callers owner ≠ .idle :=
  decide_eq_true_iff

theorem advance_cases (step : main.advance threads = some next) :
    Stepped threads main .advance next := by
  unfold advance at step
  split at step
  next here => exact owns_cases (.start here) step
  next here =>
    split at step
    next busy => exact owns_cases (.goOn here (inCall_iff.mp busy)) step
    next done =>
      have idle := not_not.mp (mt inCall_iff.mpr done)
      split at step
      next won =>
        cases step
        exact .won here idle
      next lost => exact owns_cases (.refused here idle lost) step
  next here =>
    split at step
    next requested => exact owns_cases (.stop here requested) step
    next =>
      cases step
      exact .sleep here
  next here =>
    split at step
    next busy => exact owns_cases (.join here (inCall_iff.mp busy)) step
    next done =>
      exact owns_cases (.stopped here (not_not.mp (mt inCall_iff.mpr done)))
        step
  next here => exact owns_cases (.unwind here) step
  next code here =>
    split at step
    next destroyed =>
      cases step
      exact .exit here destroyed
    next left => exact owns_cases (.leave here left) step
  next => cases step

theorem step_cases (step : main.step threads label = some next) :
    Stepped threads main label next := by
  unfold MainThread.step at step
  split at step
  next => cases step
  next => exact advance_cases step
  next here =>
    cases step
    exact .noLogFile here
  next here => exact owns_cases (.fails here) step
  next => cases step
  next =>
    cases step
    exact .signal
  next => exact owns_cases .worker step

/-! Where `main` stands tells what it has started. -/

def Starts (server : GameServer State) : CallPoint → Prop
  | .idle => server.started = workerCount ∧
      server.returns.head? = some (.start true)
  | .startStore => server.started = 0
  | .startWorkers index => server.started = index ∧ index ≤ workerCount
  | .stopStore => False
  | .stopJoin _ => False

/-- What `main` returns says how far it came. -/
def Ended (main : MainThread State) (code : Nat) : Prop :=
  code = 0 ∧ main.shutdownRequested = true ∧
      main.owned.server.started = workerCount ∨
    code = 1 ∧ main.owned.server.started < workerCount

def AtPoint (main : MainThread State) : MainPoint → Prop
  | .logging => main.owned.occupation = .ready ∧
      main.owned.server.running = false ∧ main.owned.server.started = 0
  | .starting => main.owned.occupation = .ready ∧
      Starts main.owned.server (main.owned.server.callers owner)
  | .sleeping => main.owned.occupation = .ready ∧
      main.owned.server.started = workerCount
  | .stopping => main.owned.occupation = .ready ∧
      main.owned.server.Stops (main.owned.server.callers owner) ∧
      main.shutdownRequested = true ∧ main.owned.server.started = workerCount
  | .unwinding => main.owned.occupation = .ready ∧
      main.owned.server.started < workerCount
  | .leaving code => main.Ended code ∧
      (main.owned.occupation = .destroying ∨
        main.owned.occupation = .destroyed)
  | .exited code => main.Ended code ∧
      (main.owned.occupation = .destroyed ∨ main.owned.server.started = 0)

structure Kept (threads : WorkerThreads State Label)
    (main : MainThread State) : Prop where
  owned : main.owned.Kept threads
  workerCount : main.owned.server.workerCount = MainThread.workerCount
  point : main.AtPoint main.point

variable {server after : GameServer State}

/-- Only `emplace_back` starts a thread. -/
theorem stepped_started {label : GameServerLabel Label}
    (stepped : server.Stepped threads label after)
    (elsewhere : ∀ caller index, label = .advance caller →
      server.callers caller = .startWorkers index →
      server.workerCount ≤ index) : after.started = server.started := by
  cases stepped with
  | emplace here below =>
      exact absurd below (Nat.not_lt_of_le (elsewhere _ _ rfl here))
  | clear here past =>
      change server.clearWorkers.started = _
      rw [GameServer.clearWorkers]
      split
      · rfl
      · rfl
  | _ => rfl

theorem stepped_workerCount {label : GameServerLabel Label}
    (stepped : server.Stepped threads label after) :
    after.workerCount = server.workerCount := by
  cases stepped with
  | clear here past =>
      change server.clearWorkers.workerCount = _
      rw [GameServer.clearWorkers]
      split
      · rfl
      · rfl
  | _ => rfl

theorem Starts.advance (starts : Starts server (server.callers owner))
    (count : server.workerCount = workerCount)
    (stepped : server.Stepped threads (.advance owner) after) :
    Starts after (after.callers owner) := by
  cases stepped with
  | storeTrue here =>
      rw [here] at starts
      rw [GameServer.moveTo_self]
      exact ⟨starts, Nat.zero_le _⟩
  | emplace here below =>
      rw [here] at starts
      rw [GameServer.moveTo_self]
      exact ⟨congrArg (· + 1) starts.1, count ▸ below⟩
  | startReturns here all =>
      rw [here] at starts
      have idle : (server.moveTo owner .idle).callers owner = .idle :=
        GameServer.moveTo_self
      change Starts _ ((server.moveTo owner .idle).callers owner)
      rw [idle]
      refine ⟨starts.1.trans ?_, rfl⟩
      exact Nat.le_antisymm starts.2 (count ▸ all)
  | storeFalse here | skip here | join here | clear here =>
      rw [here] at starts
      exact starts.elim

theorem Stops.counts (stops : server.Stops (server.callers owner))
    (stepped : server.Stepped threads (.advance owner) after) :
    after.started = server.started := by
  refine stepped_started stepped fun caller index isOwner here => ?_
  cases isOwner
  rw [here] at stops
  exact stops.elim

theorem Ended.congr {code : Nat} (ended : main.Ended code)
    (requested : main.shutdownRequested = true →
      next.shutdownRequested = true)
    (started : next.owned.server.started = main.owned.server.started) :
    next.Ended code := by
  unfold Ended
  rw [started]
  exact ended.imp_left fun ended => ⟨ended.1, requested ended.2.1, ended.2.2⟩

theorem AtPoint.worker {label : Label} {owned : OwnedServer State}
    (atPoint : main.AtPoint main.point)
    (stepped : main.owned.Stepped threads (.worker label) owned) :
    { main with owned := owned }.AtPoint main.point := by
  cases stepped with
  | worker stepped =>
      cases stepped with
      | worker isStarted taken =>
          cases here : main.point with
          | logging | starting | sleeping | stopping | unwinding | leaving
          | exited =>
              rw [here] at atPoint
              exact atPoint

theorem AtPoint.uses {use : OwnerLabel Label} {point : MainPoint}
    {owned : OwnedServer State} (kept : Kept threads main)
    (uses : Uses main label use point)
    (stepped : main.owned.Stepped threads use owned) :
    { main with owned := owned, point := point }.AtPoint point := by
  have atPoint := kept.point
  cases uses with
  | start here =>
      rw [here] at atPoint
      obtain ⟨ready, stopped, none⟩ := atPoint
      cases stepped with
      | start _ stepped =>
          cases stepped with
          | startRefused idle running => cases running.symm.trans stopped
          | startPasses idle _ =>
              refine ⟨ready, ?_⟩
              rw [GameServer.moveTo_self]
              exact none
  | goOn here busy =>
      rw [here] at atPoint
      obtain ⟨ready, starts⟩ := atPoint
      cases stepped with
      | advance inCall stepped =>
          exact ⟨ready, starts.advance kept.workerCount stepped⟩
      | waited waiting | waitSkips waiting | waitJoins waiting =>
          cases ready.symm.trans waiting
      | destroyMembers destroying => cases ready.symm.trans destroying
  | refused here idle lost =>
      rw [here, AtPoint, idle] at atPoint
      exact absurd atPoint.2.2 lost
  | stop here requested =>
      rw [here] at atPoint
      obtain ⟨ready, all⟩ := atPoint
      cases stepped with
      | stop _ stepped =>
          refine ⟨ready, GameServer.Stops.stop stepped, requested, ?_⟩
          exact (stepped_started stepped nofun).trans all
  | join here busy =>
      rw [here] at atPoint
      obtain ⟨ready, stops, requested, all⟩ := atPoint
      cases stepped with
      | advance inCall stepped =>
          exact ⟨ready, stops.advance stepped, requested,
            (Stops.counts stops stepped).trans all⟩
      | waited waiting | waitSkips waiting | waitJoins waiting =>
          cases ready.symm.trans waiting
      | destroyMembers destroying => cases ready.symm.trans destroying
  | stopped here idle =>
      rw [here] at atPoint
      obtain ⟨ready, stops, requested, all⟩ := atPoint
      cases stepped with
      | destroy _ stepped =>
          exact ⟨.inl ⟨rfl, requested,
            (stepped_started stepped nofun).trans all⟩, .inl rfl⟩
  | unwind here =>
      rw [here] at atPoint
      cases stepped with
      | destroy _ stepped =>
          refine ⟨.inr ⟨rfl, ?_⟩, .inl rfl⟩
          exact (stepped_started stepped nofun).trans_lt atPoint.2
  | leave here left =>
      rw [here] at atPoint
      obtain ⟨ended, occupation⟩ := atPoint
      have destroying := occupation.resolve_right left
      cases stepped with
      | advance inCall stepped =>
          have stops := kept.owned.destroying destroying
          exact ⟨ended.congr id (Stops.counts stops stepped), .inl destroying⟩
      | waited waiting | waitSkips waiting | waitJoins waiting =>
          cases destroying.symm.trans waiting
      | destroyMembers _ idle =>
          refine ⟨ended.congr id ?_, .inr rfl⟩
          change main.owned.server.clearWorkers.started = _
          rw [GameServer.clearWorkers]
          split
          · rfl
          · rfl
  | fails here =>
      rw [here] at atPoint
      cases stepped with
      | threadFails ready spawning below =>
          obtain ⟨-, starts⟩ := atPoint
          rw [spawning] at starts
          refine ⟨ready, ?_⟩
          change main.owned.server.started < workerCount
          rw [starts.1, ← kept.workerCount]
          exact below
  | worker => exact atPoint.worker stepped

theorem uses_workerCount {use : OwnerLabel Label} {owned : OwnedServer State}
    (stepped : main.owned.Stepped threads use owned) :
    owned.server.workerCount = main.owned.server.workerCount := by
  cases stepped with
  | start _ stepped | stop _ stepped | destroy _ stepped
  | advance _ stepped => exact stepped_workerCount stepped
  | worker stepped => exact stepped_workerCount stepped
  | destroyMembers =>
      change main.owned.server.clearWorkers.workerCount = _
      rw [GameServer.clearWorkers]
      split
      · rfl
      · rfl
  | _ => rfl

theorem Kept.step (stable : threads.Stable) (kept : Kept threads main)
    (stepped : Stepped threads main label next) : Kept threads next := by
  have point := kept.point
  cases stepped with
  | uses uses stepped =>
      exact ⟨kept.owned.step stable stepped,
        (uses_workerCount stepped).trans kept.workerCount,
        AtPoint.uses kept uses stepped⟩
  | won here idle =>
      rw [here, AtPoint, idle] at point
      exact ⟨kept.owned, kept.workerCount, point.1, point.2.1⟩
  | sleep here => exact kept
  | exit here destroyed =>
      rw [here] at point
      exact ⟨kept.owned, kept.workerCount, point.1, .inl destroyed⟩
  | noLogFile here =>
      rw [here] at point
      refine ⟨kept.owned, kept.workerCount, .inr ⟨rfl, ?_⟩, .inr point.2.2⟩
      exact point.2.2.trans_lt (by decide)
  | signal =>
      refine ⟨kept.owned, kept.workerCount, ?_⟩
      change ({ main with shutdownRequested := true } : MainThread State).AtPoint
        main.point
      cases here : main.point with
      | logging | starting | sleeping | unwinding =>
          rw [here] at point
          exact point
      | stopping =>
          rw [here] at point
          exact ⟨point.1, point.2.1, rfl, point.2.2.2⟩
      | leaving code =>
          rw [here] at point
          exact ⟨point.1.congr (fun _ => rfl) rfl, point.2⟩
      | exited code =>
          rw [here] at point
          exact ⟨point.1.congr (fun _ => rfl) rfl, point.2⟩

theorem kept_initial : Kept threads
    { owned := { server := .construct threads workerCount } } :=
  ⟨.construct workerCount, rfl, rfl, rfl, rfl⟩

variable {first last : MainThread State}
  {history : List (MainThread State × MainLabel Label)}

theorem kept_of_run (stable : threads.Stable)
    (start : (mainSystem threads).initial first)
    (run : (mainSystem threads).Execution first history last) :
    Kept threads last := by
  cases start
  refine run.forall_visited kept_initial (fun _ _ _ kept step =>
    kept.step stable (step_cases step)) last
    (TransitionSystem.last_mem_visited history last)

/-- `main` never terminates abnormally. When it exits, every worker thread that
it started has returned, and its code tells whether it had started all of them
and was asked to shut down. -/
theorem main_exits (stable : threads.Stable)
    (start : (mainSystem threads).initial first)
    (run : (mainSystem threads).Execution first history last) :
    last.owned.server.terminated = false ∧
      ∀ code, last.point = .exited code →
        last.owned.AllReturned threads ∧ last.Ended code := by
  have kept := kept_of_run stable start run
  refine ⟨kept.owned.server.alive, fun code exited => ?_⟩
  have point := kept.point
  rw [exited] at point
  refine ⟨?_, point.1⟩
  rcases point.2 with destroyed | none
  · exact kept.owned.quiet (kept.owned.destroyed destroyed)
  · intro worker below
    rw [none] at below
    exact absurd below (Nat.not_lt_zero _)

end MainThread

end

namespace MainThread

/-- All the workers return after the signal. -/
def briefMain : List (MainLabel WorkerId) :=
  [.advance, .advance, .advance, .advance, .advance, .advance, .advance,
    .advance, .advance, .signal, .advance, .worker 0, .worker 1, .worker 2,
    .worker 3, .advance, .advance, .advance, .advance, .advance, .advance,
    .advance, .advance, .advance]

theorem brief_main_exits :
    ∃ last, TransitionSystem.runLabels (MainThread.step briefThreads)
        { owned := { server := .construct briefThreads workerCount } }
        briefMain = some last ∧
      last.point = .exited 0 ∧ last.owned.server.started = 4 ∧
      last.owned.AllReturned briefThreads := by
  have run : ∃ last, TransitionSystem.runLabels
      (MainThread.step briefThreads)
      { owned := { server := .construct briefThreads workerCount } }
      briefMain = some last ∧ last.point = .exited 0 ∧
      last.owned.server.started = 4 := ⟨_, rfl, rfl, rfl⟩
  obtain ⟨last, run, exited, four⟩ := run
  obtain ⟨-, exits⟩ := main_exits brief_stable rfl (.runLabels run)
  exact ⟨last, run, exited, four, (exits 0 exited).1⟩

end MainThread

/-! The event loops never return. -/

theorem eventLoops_stable : eventLoopThreads.Stable :=
  fun _ _ _ worker step returned =>
    (congrFun (GameServer.eventLoops_returned step) worker).trans returned

namespace MainThread

variable {main next : MainThread EventLoops}
  {label : MainLabel EventLoopLabel}

def Unreturned (main : MainThread EventLoops) : Prop :=
  ∀ worker, main.owned.server.workers.returned worker = false

theorem server_unreturned {server after : GameServer EventLoops}
    {label : GameServerLabel EventLoopLabel}
    (stepped : server.Stepped eventLoopThreads label after) :
    after.workers.returned = server.workers.returned := by
  cases stepped with
  | worker isStarted taken => exact GameServer.eventLoops_returned taken
  | clear here past =>
      exact congrArg EventLoops.returned GameServer.clearWorkers_workers
  | _ => rfl

theorem owned_unreturned {owned after : OwnedServer EventLoops}
    {label : OwnerLabel EventLoopLabel}
    (stepped : owned.Stepped eventLoopThreads label after) :
    after.server.workers.returned = owned.server.workers.returned := by
  cases stepped with
  | start _ stepped | stop _ stepped | destroy _ stepped
  | advance _ stepped => exact server_unreturned stepped
  | worker stepped => exact server_unreturned stepped
  | destroyMembers =>
      exact congrArg EventLoops.returned GameServer.clearWorkers_workers
  | _ => rfl

theorem Unreturned.step (unreturned : main.Unreturned)
    (stepped : Stepped eventLoopThreads main label next) :
    next.Unreturned := by
  cases stepped with
  | uses uses stepped =>
      exact fun worker =>
        (congrFun (owned_unreturned stepped) worker).trans (unreturned worker)
  | won | sleep | exit | noLogFile | signal => exact unreturned

variable {first last : MainThread EventLoops}
  {history : List (MainThread EventLoops × MainLabel EventLoopLabel)}

/-- With these workers `main` exits only where it could not start the first of
them: once one runs, `Ctrl+C` ends in a `join` for good. -/
theorem main_exits_without_workers
    (start : (mainSystem eventLoopThreads).initial first)
    (run : (mainSystem eventLoopThreads).Execution first history last) :
    ∀ code, last.point = .exited code →
      code = 1 ∧ last.owned.server.started = 0 := by
  intro code exited
  have kept := kept_of_run eventLoops_stable start run
  cases start
  have unreturned : last.Unreturned := run.forall_visited (fun _ => rfl)
    (fun _ _ _ unreturned step => unreturned.step (step_cases step)) last
    (TransitionSystem.last_mem_visited history last)
  have point := kept.point
  rw [exited] at point
  have none : last.owned.server.started = 0 := by
    refine point.2.elim (fun destroyed => Nat.eq_zero_of_not_pos ?_) id
    intro some
    have returned := kept.owned.quiet (kept.owned.destroyed destroyed) 0 some
    cases (unreturned 0).symm.trans returned
  refine ⟨?_, none⟩
  rcases point.1 with ⟨-, -, all⟩ | ⟨isOne, -⟩
  · cases none.symm.trans all
  · exact isOne

/-- There is no thread for the first worker. -/
def firstThreadFails : List (MainLabel EventLoopLabel) :=
  [.advance, .advance, .fails, .advance, .advance, .advance, .advance,
    .advance]

theorem first_thread_fails_exits :
    ∃ last, TransitionSystem.runLabels (MainThread.step eventLoopThreads)
        { owned := { server := .construct eventLoopThreads workerCount } }
        firstThreadFails = some last ∧
      last.point = .exited 1 ∧ last.owned.server.started = 0 := by
  have run : ∃ last, TransitionSystem.runLabels
      (MainThread.step eventLoopThreads)
      { owned := { server := .construct eventLoopThreads workerCount } }
      firstThreadFails = some last ∧ last.point = .exited 1 :=
    ⟨_, rfl, rfl⟩
  obtain ⟨last, run, exited⟩ := run
  exact ⟨last, run, exited,
    (main_exits_without_workers rfl (.runLabels run) 1 exited).2⟩

end MainThread

end CoUring
