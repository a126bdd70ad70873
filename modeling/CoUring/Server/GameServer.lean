import CoUring.Server.Confinement

namespace CoUring

open Foundation

/-! `GameServer::start` and `GameServer::stop`, called from any number of
threads. A load or a store of `running_`, and an operation on
`worker_threads_`, is one step. -/

/-- What the worker threads do: their steps, the thread that takes a step, and
whether a thread is at the end of `worker_thread_func`. -/
structure WorkerThreads (State Label : Type) where
  initial : State
  step : State → Label → Option State
  runner : Label → Option WorkerId
  returned : State → WorkerId → Bool

abbrev CallerId := Nat

/-- Where a thread stands in its call: behind the test of `running_`, or in the
loop over the workers. -/
inductive CallPoint
  | idle
  | startStore
  | startWorkers (index : Nat)
  | stopStore
  | stopJoin (index : Nat)
  deriving DecidableEq, Repr

def CallPoint.Starting : CallPoint → Prop
  | .startStore => True
  | .startWorkers _ => True
  | _ => False

instance : DecidablePred CallPoint.Starting
  | .startStore => inferInstanceAs (Decidable True)
  | .startWorkers _ => inferInstanceAs (Decidable True)
  | .idle => inferInstanceAs (Decidable False)
  | .stopStore => inferInstanceAs (Decidable False)
  | .stopJoin _ => inferInstanceAs (Decidable False)

/-- The return of a call: the value of `start`, and whether `stop` had found
the server running. -/
inductive Return
  | start (won : Bool)
  | stop (found : Bool)
  deriving DecidableEq, Repr

structure WorkerThread where
  worker : WorkerId
  joinable : Bool := true
  deriving DecidableEq, Repr

structure GameServer (State : Type) where
  workerCount : Nat
  workers : State
  running : Bool := false
  workerThreads : List WorkerThread := []
  callers : CallerId → CallPoint := fun _ => .idle
  started : Nat := 0
  /-- The calls that returned, the last one first. -/
  returns : List Return := []
  terminated : Bool := false

inductive GameServerLabel (Label : Type)
  /-- A call up to its load of `running_`; `advance` is what comes after. -/
  | start (caller : CallerId)
  | stop (caller : CallerId)
  | advance (caller : CallerId)
  | worker (label : Label)
  deriving DecidableEq, Repr

section

variable {State Label : Type}

namespace GameServer

def moveTo (server : GameServer State) (caller : CallerId)
    (point : CallPoint) : GameServer State :=
  { server with callers := Function.update server.callers caller point }

def returnFrom (server : GameServer State) (caller : CallerId)
    (value : Return) : GameServer State :=
  { server.moveTo caller .idle with returns := value :: server.returns }

/-- `worker_threads_.emplace_back(&GameServer::worker_thread_func, …)` -/
def emplaceWorker (server : GameServer State) : GameServer State :=
  { server with
    workerThreads := server.workerThreads ++ [⟨server.started, true⟩]
    started := server.started + 1 }

def join (server : GameServer State) (index : Nat)
    (thread : WorkerThread) : GameServer State :=
  { server with
    workerThreads :=
      server.workerThreads.set index { thread with joinable := false } }

/-- `worker_threads_.clear()`: destroying a thread that is joinable
terminates. -/
def clearWorkers (server : GameServer State) : GameServer State :=
  if server.workerThreads.any WorkerThread.joinable then
    { server with terminated := true }
  else { server with workerThreads := [] }

def advance (threads : WorkerThreads State Label) (server : GameServer State)
    (caller : CallerId) : Option (GameServer State) :=
  match server.callers caller with
  | .idle => none
  | .startStore =>
      some ({ server with running := true }.moveTo caller (.startWorkers 0))
  | .startWorkers index =>
      if index < server.workerCount then
        some (server.emplaceWorker.moveTo caller (.startWorkers (index + 1)))
      else some (server.returnFrom caller (.start true))
  | .stopStore =>
      some ({ server with running := false }.moveTo caller (.stopJoin 0))
  | .stopJoin index =>
      match server.workerThreads[index]? with
      | none => some (server.clearWorkers.returnFrom caller (.stop true))
      | some thread =>
          if thread.joinable then
            if threads.returned server.workers thread.worker then
              some ((server.join index thread).moveTo caller
                (.stopJoin (index + 1)))
            else none
          else some (server.moveTo caller (.stopJoin (index + 1)))

def perform (threads : WorkerThreads State Label)
    (server : GameServer State) :
    GameServerLabel Label → Option (GameServer State)
  | .start caller =>
      if server.callers caller = .idle then
        if server.running then some (server.returnFrom caller (.start false))
        else some (server.moveTo caller .startStore)
      else none
  | .stop caller =>
      if server.callers caller = .idle then
        if server.running then some (server.moveTo caller .stopStore)
        else some (server.returnFrom caller (.stop false))
      else none
  | .advance caller => server.advance threads caller
  | .worker label =>
      if ∀ worker ∈ threads.runner label, worker < server.started then
        (threads.step server.workers label).map fun workers =>
          { server with workers := workers }
      else none

def step (threads : WorkerThreads State Label) (server : GameServer State)
    (label : GameServerLabel Label) : Option (GameServer State) :=
  if server.terminated then none else server.perform threads label

def construct (threads : WorkerThreads State Label) (workerCount : Nat) :
    GameServer State :=
  { workerCount, workers := threads.initial }

/-- The `start` calls that returned true since a `stop` last stopped the
server. -/
def winsIn : List Return → Nat
  | [] => 0
  | .stop true :: _ => 0
  | .start true :: returns => winsIn returns + 1
  | _ :: returns => winsIn returns

def wins (server : GameServer State) : Nat := winsIn server.returns

def unjoined (server : GameServer State) : Nat :=
  server.workerThreads.countP WorkerThread.joinable

end GameServer

def gameServerSystem (threads : WorkerThreads State Label) :
    TransitionSystem (GameServer State) (GameServerLabel Label) :=
  .ofFunction (fun server => ∃ workerCount,
    server = .construct threads workerCount) (GameServer.step threads)

namespace GameServer

variable {threads : WorkerThreads State Label}
  {server before after : GameServer State} {label : GameServerLabel Label}

@[simp] theorem moveTo_self {caller : CallerId} {point : CallPoint} :
    (server.moveTo caller point).callers caller = point :=
  Function.update_self ..

inductive Stepped (threads : WorkerThreads State Label)
    (server : GameServer State) :
    GameServerLabel Label → GameServer State → Prop
  | startRefused {caller : CallerId} (idle : server.callers caller = .idle)
      (running : server.running = true) :
      Stepped threads server (.start caller)
        (server.returnFrom caller (.start false))
  | startPasses {caller : CallerId} (idle : server.callers caller = .idle)
      (stopped : server.running = false) :
      Stepped threads server (.start caller)
        (server.moveTo caller .startStore)
  | stopRefused {caller : CallerId} (idle : server.callers caller = .idle)
      (stopped : server.running = false) :
      Stepped threads server (.stop caller)
        (server.returnFrom caller (.stop false))
  | stopPasses {caller : CallerId} (idle : server.callers caller = .idle)
      (running : server.running = true) :
      Stepped threads server (.stop caller) (server.moveTo caller .stopStore)
  | storeTrue {caller : CallerId}
      (here : server.callers caller = .startStore) :
      Stepped threads server (.advance caller)
        ({ server with running := true }.moveTo caller (.startWorkers 0))
  | emplace {caller : CallerId} {index : Nat}
      (here : server.callers caller = .startWorkers index)
      (below : index < server.workerCount) :
      Stepped threads server (.advance caller)
        (server.emplaceWorker.moveTo caller (.startWorkers (index + 1)))
  | startReturns {caller : CallerId} {index : Nat}
      (here : server.callers caller = .startWorkers index)
      (all : server.workerCount ≤ index) :
      Stepped threads server (.advance caller)
        (server.returnFrom caller (.start true))
  | storeFalse {caller : CallerId}
      (here : server.callers caller = .stopStore) :
      Stepped threads server (.advance caller)
        ({ server with running := false }.moveTo caller (.stopJoin 0))
  | skip {caller : CallerId} {index : Nat} {thread : WorkerThread}
      (here : server.callers caller = .stopJoin index)
      (found : server.workerThreads[index]? = some thread)
      (joined : thread.joinable = false) :
      Stepped threads server (.advance caller)
        (server.moveTo caller (.stopJoin (index + 1)))
  | join {caller : CallerId} {index : Nat} {thread : WorkerThread}
      (here : server.callers caller = .stopJoin index)
      (found : server.workerThreads[index]? = some thread)
      (joinable : thread.joinable = true)
      (returned : threads.returned server.workers thread.worker = true) :
      Stepped threads server (.advance caller)
        ((server.join index thread).moveTo caller (.stopJoin (index + 1)))
  | clear {caller : CallerId} {index : Nat}
      (here : server.callers caller = .stopJoin index)
      (past : server.workerThreads.length ≤ index) :
      Stepped threads server (.advance caller)
        (server.clearWorkers.returnFrom caller (.stop true))
  | worker {label : Label} {workers : State}
      (isStarted : ∀ worker ∈ threads.runner label, worker < server.started)
      (stepped : threads.step server.workers label = some workers) :
      Stepped threads server (.worker label)
        { server with workers := workers }

theorem advance_cases {caller : CallerId}
    (step : server.advance threads caller = some after) :
    Stepped threads server (.advance caller) after := by
  unfold advance at step
  split at step
  next => cases step
  next here =>
    cases step
    exact .storeTrue here
  next index here =>
    split at step
    next below =>
      cases step
      exact .emplace here below
    next all =>
      cases step
      exact .startReturns here (Nat.le_of_not_lt all)
  next here =>
    cases step
    exact .storeFalse here
  next index here =>
    split at step
    next absent =>
      cases step
      exact .clear here (List.getElem?_eq_none_iff.mp absent)
    next thread found =>
      split at step
      next joinable =>
        obtain ⟨returned, same⟩ := Option.ite_none_right_eq_some.mp step
        cases same
        exact .join here found joinable returned
      next joined =>
        cases step
        exact .skip here found (Bool.eq_false_iff.mpr joined)

theorem step_cases (step : server.step threads label = some after) :
    server.terminated = false ∧ Stepped threads server label after := by
  obtain ⟨alive, step⟩ := Option.ite_none_left_eq_some.mp step
  refine ⟨Bool.eq_false_iff.mpr alive, ?_⟩
  cases label with
  | start caller =>
      obtain ⟨idle, step⟩ := Option.ite_none_right_eq_some.mp step
      split at step
      next running =>
        cases step
        exact .startRefused idle running
      next stopped =>
        cases step
        exact .startPasses idle (Bool.eq_false_iff.mpr stopped)
  | stop caller =>
      obtain ⟨idle, step⟩ := Option.ite_none_right_eq_some.mp step
      split at step
      next running =>
        cases step
        exact .stopPasses idle running
      next stopped =>
        cases step
        exact .stopRefused idle (Bool.eq_false_iff.mpr stopped)
  | advance caller => exact advance_cases step
  | worker label =>
      obtain ⟨isStarted, step⟩ := Option.ite_none_right_eq_some.mp step
      obtain ⟨workers, stepped, same⟩ := Option.map_eq_some_iff.mp step
      cases same
      exact .worker isStarted stepped

end GameServer

end

/-! The worker threads of the server. -/

/-- The event loops of the worker threads, with the iterations each has
finished. -/
structure EventLoops where
  server : Server := {}
  iterations : WorkerId → Nat := fun _ => 0
  returned : WorkerId → Bool := fun _ => false

inductive EventLoopLabel
  | server (label : Label)
  | leave (worker : WorkerId)
  deriving DecidableEq, Repr

def Phase.inIteration : Phase → Bool
  | .waiting _ => true
  | .dispatching => true
  | _ => false

namespace EventLoops

def condition : Bool := true

def finishes (before after : Server) (worker : WorkerId) : Bool :=
  (before.workers worker).phase.inIteration &&
    (after.workers worker).phase = .looping

def step (loops : EventLoops) : EventLoopLabel → Option EventLoops
  | .server label =>
      (loops.server.step label).map fun server =>
        { loops with
          server := server
          iterations := fun worker => loops.iterations worker +
            (finishes loops.server server worker).toNat }
  | .leave worker =>
      if (loops.server.workers worker).phase = .looping ∧
          condition = false then
        some { loops with
          returned := Function.update loops.returned worker true }
      else none

end EventLoops

def EventLoopLabel.runner : EventLoopLabel → Option WorkerId
  | .server label => label.runner
  | .leave worker => some worker

def eventLoopThreads : WorkerThreads EventLoops EventLoopLabel where
  initial := {}
  step := EventLoops.step
  runner := EventLoopLabel.runner
  returned := EventLoops.returned

end CoUring
