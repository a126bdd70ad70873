import CoUring.Server.StartStop

namespace CoUring

open Foundation

/-! A `GameServer` that one thread owns: `start`, `stop`, `wait_for_shutdown`
and the destructor, in any order, while the workers run. -/

def owner : CallerId := 0

inductive Occupation
  | ready
  | waiting (index : Nat)
  | destroying
  | destroyed
  deriving DecidableEq, Repr

structure OwnedServer (State : Type) where
  server : GameServer State
  occupation : Occupation := .ready

inductive OwnerLabel (Label : Type)
  | start
  | stop
  | waitForShutdown
  | destroy
  | advance
  /-- `emplace_back` throws: there is no other thread to be had. -/
  | threadFails
  | worker (label : Label)
  deriving DecidableEq, Repr

section

variable {State Label : Type}

namespace OwnedServer

def call (threads : WorkerThreads State Label) (owned : OwnedServer State)
    (label : GameServerLabel Label) : Option (OwnedServer State) :=
  (owned.server.step threads label).map fun server =>
    { owned with server := server }

/-- The loop of `wait_for_shutdown`. -/
def waitNext (threads : WorkerThreads State Label) (owned : OwnedServer State)
    (index : Nat) : Option (OwnedServer State) :=
  match owned.server.workerThreads[index]? with
  | none => some { owned with occupation := .ready }
  | some thread =>
      if thread.joinable then
        if threads.returned owned.server.workers thread.worker then
          some { server := owned.server.join index thread
                 occupation := .waiting (index + 1) }
        else none
      else some { owned with occupation := .waiting (index + 1) }

/-- The members go after the body of the destructor. -/
def destroyMembers (owned : OwnedServer State) : OwnedServer State :=
  { server := owned.server.clearWorkers, occupation := .destroyed }

def advance (threads : WorkerThreads State Label)
    (owned : OwnedServer State) : Option (OwnedServer State) :=
  match owned.occupation with
  | .ready => owned.call threads (.advance owner)
  | .waiting index => owned.waitNext threads index
  | .destroying =>
      if owned.server.callers owner = .idle then some owned.destroyMembers
      else owned.call threads (.advance owner)
  | .destroyed => none

def perform (threads : WorkerThreads State Label)
    (owned : OwnedServer State) :
    OwnerLabel Label → Option (OwnedServer State)
  | .start =>
      if owned.occupation = .ready then owned.call threads (.start owner)
      else none
  | .stop =>
      if owned.occupation = .ready then owned.call threads (.stop owner)
      else none
  | .waitForShutdown =>
      if owned.occupation = .ready ∧ owned.server.callers owner = .idle then
        some { owned with occupation := .waiting 0 }
      else none
  | .destroy =>
      if owned.occupation = .ready then
        (owned.server.step threads (.stop owner)).map fun server =>
          { server, occupation := .destroying }
      else none
  | .advance => owned.advance threads
  | .threadFails =>
      match owned.occupation, owned.server.callers owner with
      | .ready, .startWorkers index =>
          if index < owned.server.workerCount then
            some { owned with server := owned.server.moveTo owner .idle }
          else none
      | _, _ => none
  | .worker label => owned.call threads (.worker label)

def step (threads : WorkerThreads State Label) (owned : OwnedServer State)
    (label : OwnerLabel Label) : Option (OwnedServer State) :=
  if owned.server.terminated then none else owned.perform threads label

end OwnedServer

def ownedSystem (threads : WorkerThreads State Label) :
    TransitionSystem (OwnedServer State) (OwnerLabel Label) :=
  .ofFunction (fun owned => ∃ workerCount,
    owned = { server := .construct threads workerCount })
    (OwnedServer.step threads)

namespace OwnedServer

variable {threads : WorkerThreads State Label}
  {owned next : OwnedServer State} {label : OwnerLabel Label}

inductive Stepped (threads : WorkerThreads State Label)
    (owned : OwnedServer State) :
    OwnerLabel Label → OwnedServer State → Prop
  | start {server : GameServer State} (ready : owned.occupation = .ready)
      (stepped : owned.server.Stepped threads (.start owner) server) :
      Stepped threads owned .start { owned with server := server }
  | stop {server : GameServer State} (ready : owned.occupation = .ready)
      (stepped : owned.server.Stepped threads (.stop owner) server) :
      Stepped threads owned .stop { owned with server := server }
  | waitForShutdown (ready : owned.occupation = .ready)
      (idle : owned.server.callers owner = .idle) :
      Stepped threads owned .waitForShutdown
        { owned with occupation := .waiting 0 }
  | destroy {server : GameServer State} (ready : owned.occupation = .ready)
      (stepped : owned.server.Stepped threads (.stop owner) server) :
      Stepped threads owned .destroy { server, occupation := .destroying }
  | advance {server : GameServer State}
      (inCall : owned.occupation = .ready ∨ owned.occupation = .destroying)
      (stepped : owned.server.Stepped threads (.advance owner) server) :
      Stepped threads owned .advance { owned with server := server }
  | waited {index : Nat} (waiting : owned.occupation = .waiting index)
      (past : owned.server.workerThreads.length ≤ index) :
      Stepped threads owned .advance { owned with occupation := .ready }
  | waitSkips {index : Nat} {thread : WorkerThread}
      (waiting : owned.occupation = .waiting index)
      (found : owned.server.workerThreads[index]? = some thread)
      (joined : thread.joinable = false) :
      Stepped threads owned .advance
        { owned with occupation := .waiting (index + 1) }
  | waitJoins {index : Nat} {thread : WorkerThread}
      (waiting : owned.occupation = .waiting index)
      (found : owned.server.workerThreads[index]? = some thread)
      (joinable : thread.joinable = true)
      (returned : threads.returned owned.server.workers thread.worker =
        true) :
      Stepped threads owned .advance
        { server := owned.server.join index thread
          occupation := .waiting (index + 1) }
  | destroyMembers (destroying : owned.occupation = .destroying)
      (idle : owned.server.callers owner = .idle) :
      Stepped threads owned .advance owned.destroyMembers
  | threadFails {index : Nat} (ready : owned.occupation = .ready)
      (here : owned.server.callers owner = .startWorkers index)
      (below : index < owned.server.workerCount) :
      Stepped threads owned .threadFails
        { owned with server := owned.server.moveTo owner .idle }
  | worker {label : Label} {server : GameServer State}
      (stepped : owned.server.Stepped threads (.worker label) server) :
      Stepped threads owned (.worker label) { owned with server := server }

theorem call_cases {label : GameServerLabel Label}
    (called : owned.call threads label = some next) :
    ∃ server, owned.server.Stepped threads label server ∧
      next = { owned with server := server } := by
  obtain ⟨server, step, rfl⟩ := Option.map_eq_some_iff.mp called
  exact ⟨server, (GameServer.step_cases step).2, rfl⟩

theorem advance_cases (step : owned.advance threads = some next) :
    Stepped threads owned .advance next := by
  unfold advance at step
  split at step
  next ready =>
    obtain ⟨server, stepped, rfl⟩ := call_cases step
    exact .advance (.inl ready) stepped
  next index waiting =>
    unfold waitNext at step
    split at step
    next absent =>
      cases step
      exact .waited waiting (List.getElem?_eq_none_iff.mp absent)
    next thread found =>
      split at step
      next joinable =>
        obtain ⟨returned, same⟩ := Option.ite_none_right_eq_some.mp step
        cases same
        exact .waitJoins waiting found joinable returned
      next joined =>
        cases step
        exact .waitSkips waiting found (Bool.eq_false_iff.mpr joined)
  next destroying =>
    split at step
    next idle =>
      cases step
      exact .destroyMembers destroying idle
    next busy =>
      obtain ⟨server, stepped, rfl⟩ := call_cases step
      exact .advance (.inr destroying) stepped
  next => cases step

theorem step_cases (step : owned.step threads label = some next) :
    owned.server.terminated = false ∧ Stepped threads owned label next := by
  obtain ⟨alive, step⟩ := Option.ite_none_left_eq_some.mp step
  refine ⟨Bool.eq_false_iff.mpr alive, ?_⟩
  cases label with
  | start =>
      obtain ⟨ready, step⟩ := Option.ite_none_right_eq_some.mp step
      obtain ⟨server, stepped, rfl⟩ := call_cases step
      exact .start ready stepped
  | stop =>
      obtain ⟨ready, step⟩ := Option.ite_none_right_eq_some.mp step
      obtain ⟨server, stepped, rfl⟩ := call_cases step
      exact .stop ready stepped
  | waitForShutdown =>
      obtain ⟨⟨ready, idle⟩, same⟩ := Option.ite_none_right_eq_some.mp step
      cases same
      exact .waitForShutdown ready idle
  | destroy =>
      obtain ⟨ready, step⟩ := Option.ite_none_right_eq_some.mp step
      obtain ⟨server, taken, rfl⟩ := Option.map_eq_some_iff.mp step
      exact .destroy ready (GameServer.step_cases taken).2
  | advance => exact advance_cases step
  | threadFails =>
      rw [perform] at step
      split at step
      next index ready here =>
        obtain ⟨below, same⟩ := Option.ite_none_right_eq_some.mp step
        cases same
        exact .threadFails ready here below
      next => cases step
  | worker label =>
      obtain ⟨server, stepped, rfl⟩ := call_cases step
      exact .worker stepped

end OwnedServer

/-- A thread that has returned stays so. -/
def WorkerThreads.Stable (threads : WorkerThreads State Label) : Prop :=
  ∀ state label next worker, threads.step state label = some next →
    threads.returned state worker = true →
    threads.returned next worker = true

namespace GameServer

variable {threads : WorkerThreads State Label}
  {server after : GameServer State} {label : GameServerLabel Label}

def Joined (server : GameServer State) (index : Nat) : Prop :=
  ∀ (position : Nat) (thread : WorkerThread), position < index →
    server.workerThreads[position]? = some thread → thread.joinable = false

def AtPoint (server : GameServer State) : CallPoint → Prop
  | .idle => server.running = false → server.workerThreads = []
  | .startStore => server.workerThreads = []
  | .startWorkers _ => server.running = true
  | .stopStore => True
  | .stopJoin index => server.running = false ∧ server.Joined index

/-- Every thread that was started has returned, or can still be joined. -/
structure Accounted (threads : WorkerThreads State Label)
    (server : GameServer State) : Prop where
  alive : server.terminated = false
  accounted : ∀ worker, worker < server.started →
    threads.returned server.workers worker = true ∨
      ⟨worker, true⟩ ∈ server.workerThreads
  point : server.AtPoint (server.callers owner)

theorem joined_zero : server.Joined 0 :=
  fun _ _ below => absurd below (Nat.not_lt_zero _)

theorem Joined.next {index : Nat} {thread : WorkerThread}
    (joined : server.Joined index)
    (found : server.workerThreads[index]? = some thread)
    (unjoinable : thread.joinable = false) : server.Joined (index + 1) := by
  intro position other below found'
  rcases Nat.lt_succ_iff_lt_or_eq.mp below with earlier | rfl
  · exact joined position other earlier found'
  · cases found.symm.trans found'
    exact unjoinable

theorem Joined.join {index : Nat} {thread : WorkerThread}
    (joined : server.Joined index) :
    (server.join index thread).Joined (index + 1) := by
  intro position other below found
  rw [GameServer.join, List.getElem?_set] at found
  split at found
  next same =>
    split at found
    next => cases found; rfl
    next => cases found
  next different =>
    exact joined position other (by omega) found

namespace Accounted

theorem all_returned (accounted : Accounted threads server) {index : Nat}
    (joined : server.Joined index)
    (past : server.workerThreads.length ≤ index) :
    server.clearWorkers = { server with workerThreads := [] } ∧
      ∀ worker, worker < server.started →
        threads.returned server.workers worker = true := by
  refine ⟨clearWorkers_eq (unjoined_eq_zero past joined),
    fun worker below => ?_⟩
  rcases accounted.accounted worker below with returned | listed
  · exact returned
  · exact absurd rfl (List.countP_eq_zero.mp (unjoined_eq_zero past joined)
      _ listed)

theorem join (accounted : Accounted threads server) {index : Nat}
    {thread : WorkerThread}
    (found : server.workerThreads[index]? = some thread)
    (returned : threads.returned server.workers thread.worker = true) :
    ∀ worker, worker < server.started →
      threads.returned server.workers worker = true ∨
        ⟨worker, true⟩ ∈ (server.join index thread).workerThreads := by
  intro worker below
  rcases accounted.accounted worker below with gone | listed
  · exact .inl gone
  · by_cases same : thread = ⟨worker, true⟩
    · subst same
      exact .inl returned
    · obtain ⟨position, found'⟩ := List.getElem?_of_mem listed
      refine .inr (List.mem_of_getElem? (i := position) ?_)
      rw [GameServer.join, List.getElem?_set_ne]
      · exact found'
      · intro samePosition
        subst samePosition
        exact same (Option.some.inj (found.symm.trans found'))

theorem of_moved (point : CallPoint) (alive : server.terminated = false)
    (accounted : ∀ worker, worker < server.started →
      threads.returned server.workers worker = true ∨
        ⟨worker, true⟩ ∈ server.workerThreads)
    (reached : server.AtPoint point) :
    Accounted threads (server.moveTo owner point) where
  alive := alive
  accounted := accounted
  point := by
    rw [moveTo_self]
    cases point with
    | idle | startStore | startWorkers | stopStore | stopJoin => exact reached

theorem moved (accounted : Accounted threads server) {point : CallPoint}
    (reached : server.AtPoint point) :
    Accounted threads (server.moveTo owner point) :=
  of_moved point accounted.alive accounted.accounted reached

theorem returned {value : Return} (accounted : Accounted threads server)
    (reached : server.AtPoint .idle) :
    Accounted threads (server.returnFrom owner value) := by
  have moved := accounted.moved reached
  exact ⟨moved.alive, moved.accounted, moved.point⟩

theorem emplaceWorker (accounted : Accounted threads server) :
    ∀ worker, worker < server.emplaceWorker.started →
      threads.returned server.workers worker = true ∨
        ⟨worker, true⟩ ∈ server.emplaceWorker.workerThreads := by
  intro worker below
  rcases Nat.lt_succ_iff_lt_or_eq.mp below with earlier | rfl
  · exact (accounted.accounted worker earlier).imp_right
      (List.mem_append_left _)
  · exact .inr (List.mem_append_right _ (.head _))

def Owners (label : GameServerLabel Label) : Prop :=
  match label with
  | .start caller | .stop caller | .advance caller => caller = owner
  | .worker _ => True

theorem step (stable : threads.Stable) (accounted : Accounted threads server)
    (stepped : server.Stepped threads label after) (owners : Owners label) :
    Accounted threads after := by
  have point := accounted.point
  cases stepped with
  | startRefused idle running =>
      cases owners
      exact accounted.returned fun stopped => nomatch running.symm.trans stopped
  | startPasses idle stopped =>
      cases owners
      rw [idle] at point
      exact accounted.moved (point stopped)
  | stopRefused idle stopped =>
      cases owners
      rw [idle] at point
      exact accounted.returned point
  | stopPasses idle running =>
      cases owners
      exact of_moved .stopStore accounted.alive accounted.accounted trivial
  | storeTrue here =>
      cases owners
      exact of_moved (.startWorkers 0) accounted.alive accounted.accounted rfl
  | @emplace caller index here below =>
      cases owners
      rw [here] at point
      exact of_moved (.startWorkers (index + 1)) accounted.alive
        accounted.emplaceWorker point
  | startReturns here all =>
      cases owners
      rw [here] at point
      exact accounted.returned fun stopped => nomatch point.symm.trans stopped
  | storeFalse here =>
      cases owners
      exact of_moved (.stopJoin 0) accounted.alive accounted.accounted
        ⟨rfl, joined_zero⟩
  | skip here found joined =>
      cases owners
      rw [here] at point
      exact accounted.moved ⟨point.1, point.2.next found joined⟩
  | @join caller index thread here found joinable returned =>
      cases owners
      rw [here] at point
      exact of_moved (.stopJoin (index + 1)) accounted.alive
        (accounted.join found returned) ⟨point.1, point.2.join⟩
  | @clear caller index here past =>
      cases owners
      rw [here] at point
      obtain ⟨cleared, all⟩ := accounted.all_returned point.2 past
      have idle : Accounted threads (server.clearWorkers.moveTo owner .idle)
          := by
        rw [cleared]
        exact of_moved .idle accounted.alive
          (fun worker below => .inl (all worker below)) fun _ => rfl
      exact ⟨idle.alive, idle.accounted, idle.point⟩
  | worker isStarted stepped =>
      refine ⟨accounted.alive, fun worker below => ?_, point⟩
      exact (accounted.accounted worker below).imp_left
        (stable _ _ _ worker stepped)

end Accounted

def Stops (server : GameServer State) : CallPoint → Prop
  | .idle => server.running = false
  | .stopStore => True
  | .stopJoin _ => server.running = false
  | .startStore => False
  | .startWorkers _ => False

theorem Stops.moved {point : CallPoint} (stops : server.Stops point) :
    (server.moveTo owner point).Stops
      ((server.moveTo owner point).callers owner) := by
  rw [moveTo_self]
  cases point with
  | idle | stopStore | stopJoin => exact stops
  | startStore | startWorkers => exact stops.elim

theorem clearWorkers_running :
    server.clearWorkers.running = server.running := by
  rw [clearWorkers]
  split
  · rfl
  · rfl

theorem Stops.advance (stops : server.Stops (server.callers owner))
    (stepped : server.Stepped threads (.advance owner) after) :
    after.Stops (after.callers owner) := by
  cases stepped with
  | storeTrue here | emplace here | startReturns here =>
      rw [here] at stops
      exact stops.elim
  | storeFalse here =>
      have stopped : { server with running := false }.Stops (.stopJoin 0) :=
        rfl
      exact stopped.moved
  | @skip caller index thread here found joined =>
      rw [here] at stops
      have stopped : server.Stops (.stopJoin (index + 1)) := stops
      exact stopped.moved
  | @join caller index thread here found joinable returned =>
      rw [here] at stops
      have stopped : (server.join index thread).Stops
          (.stopJoin (index + 1)) := stops
      exact stopped.moved
  | clear here past =>
      rw [here] at stops
      have stopped : server.clearWorkers.Stops .idle :=
        clearWorkers_running.trans stops
      exact stopped.moved

theorem Stops.stop (stepped : server.Stepped threads (.stop owner) after) :
    after.Stops (after.callers owner) := by
  cases stepped with
  | stopRefused idle stopped =>
      have stops : server.Stops .idle := stopped
      exact stops.moved
  | stopPasses idle running =>
      have stops : server.Stops .stopStore := trivial
      exact stops.moved

end GameServer

namespace OwnedServer

variable {threads : WorkerThreads State Label}
  {owned next : OwnedServer State} {label : OwnerLabel Label}

structure Kept (threads : WorkerThreads State Label)
    (owned : OwnedServer State) : Prop where
  server : owned.server.Accounted threads
  waiting : ∀ index, owned.occupation = .waiting index →
    owned.server.callers owner = .idle ∧ owned.server.Joined index
  destroying : owned.occupation = .destroying →
    owned.server.Stops (owned.server.callers owner)
  destroyed : owned.occupation = .destroyed →
    owned.server.callers owner = .idle ∧ owned.server.running = false

namespace Kept

theorem ready (accounted : owned.server.Accounted threads)
    (ready : owned.occupation = .ready) : Kept threads owned where
  server := accounted
  waiting := fun _ waiting => nomatch ready.symm.trans waiting
  destroying := fun destroying => nomatch ready.symm.trans destroying
  destroyed := fun destroyed => nomatch ready.symm.trans destroyed

theorem waits {index : Nat} (accounted : owned.server.Accounted threads)
    (waiting : owned.occupation = .waiting index)
    (idle : owned.server.callers owner = .idle)
    (joined : owned.server.Joined index) : Kept threads owned where
  server := accounted
  waiting := fun other waiting' => by
    cases waiting.symm.trans waiting'
    exact ⟨idle, joined⟩
  destroying := fun destroying => nomatch waiting.symm.trans destroying
  destroyed := fun destroyed => nomatch waiting.symm.trans destroyed

theorem destroys (accounted : owned.server.Accounted threads)
    (destroying : owned.occupation = .destroying)
    (stops : owned.server.Stops (owned.server.callers owner)) :
    Kept threads owned where
  server := accounted
  waiting := fun _ waiting => nomatch destroying.symm.trans waiting
  destroying := fun _ => stops
  destroyed := fun destroyed => nomatch destroying.symm.trans destroyed

theorem step (stable : threads.Stable) (kept : Kept threads owned)
    (stepped : Stepped threads owned label next) : Kept threads next := by
  have accounted := kept.server
  cases stepped with
  | start isReady stepped =>
      exact .ready (accounted.step stable stepped rfl) isReady
  | stop isReady stepped =>
      exact .ready (accounted.step stable stepped rfl) isReady
  | waitForShutdown isReady idle =>
      exact .waits accounted rfl idle GameServer.joined_zero
  | destroy isReady stepped =>
      exact .destroys (accounted.step stable stepped rfl) rfl
        (GameServer.Stops.stop stepped)
  | advance inCall stepped =>
      have after := accounted.step stable stepped rfl
      rcases inCall with isReady | destroying
      · exact .ready after isReady
      · exact .destroys after destroying
          ((kept.destroying destroying).advance stepped)
  | waited waiting past => exact .ready accounted rfl
  | waitSkips waiting found joined =>
      obtain ⟨idle, earlier⟩ := kept.waiting _ waiting
      exact .waits accounted rfl idle (earlier.next found joined)
  | waitJoins waiting found joinable returned =>
      obtain ⟨idle, earlier⟩ := kept.waiting _ waiting
      have point := accounted.point
      rw [idle] at point
      refine .waits ⟨accounted.alive, accounted.join found returned, ?_⟩ rfl
        idle earlier.join
      change (owned.server.join _ _).AtPoint (owned.server.callers owner)
      rw [idle]
      intro stopped
      rw [point stopped] at found
      cases found
  | destroyMembers destroying idle =>
      have stops := kept.destroying destroying
      rw [idle] at stops
      have point := accounted.point
      rw [idle] at point
      have empty : owned.server.workerThreads = [] := point stops
      obtain ⟨cleared, all⟩ := accounted.all_returned GameServer.joined_zero
        (Nat.le_of_eq (congrArg List.length empty))
      rw [destroyMembers, cleared]
      refine ⟨⟨accounted.alive, fun worker below => .inl (all worker below),
        ?_⟩, nofun, nofun, fun _ => ⟨idle, stops⟩⟩
      change { owned.server with workerThreads := [] }.AtPoint
        (owned.server.callers owner)
      rw [idle]
      exact fun _ => rfl
  | threadFails isReady here below =>
      have point := accounted.point
      rw [here] at point
      exact .ready (accounted.moved fun stopped =>
        nomatch point.symm.trans stopped) isReady
  | worker stepped =>
      have after := accounted.step stable stepped trivial
      obtain ⟨-, waiting, destroying, destroyed⟩ := kept
      cases stepped with
      | worker isStarted taken => exact ⟨after, waiting, destroying, destroyed⟩

theorem construct (workerCount : Nat) :
    Kept threads { server := .construct threads workerCount } :=
  .ready ⟨rfl, fun _ below => absurd below (Nat.not_lt_zero _),
    fun _ => rfl⟩ rfl

end Kept

variable {first last : OwnedServer State}
  {history : List (OwnedServer State × OwnerLabel Label)}

theorem kept_of_run (stable : threads.Stable)
    (start : (ownedSystem threads).initial first)
    (run : (ownedSystem threads).Execution first history last) :
    ∀ owned ∈ TransitionSystem.visited history last, Kept threads owned := by
  obtain ⟨workerCount, rfl⟩ := start
  exact run.forall_visited (.construct workerCount) fun _ _ _ kept step =>
    kept.step stable (step_cases step).2

def AllReturned (threads : WorkerThreads State Label)
    (owned : OwnedServer State) : Prop :=
  ∀ worker, worker < owned.server.started →
    threads.returned owned.server.workers worker = true

/-- No `stop` is going on, and the server is not running. -/
def Quiet (owned : OwnedServer State) : Prop :=
  owned.server.callers owner = .idle ∧ owned.server.running = false

/-- `wait_for_shutdown` has been through the whole list. -/
def WaitEnds (owned : OwnedServer State) : Prop :=
  ∃ index, owned.occupation = .waiting index ∧
    owned.server.workerThreads.length ≤ index

theorem Kept.quiet (kept : Kept threads owned) (quiet : owned.Quiet) :
    owned.AllReturned threads := by
  have point := kept.server.point
  rw [quiet.1] at point
  exact (kept.server.all_returned GameServer.joined_zero
    (Nat.le_of_eq (congrArg List.length (point quiet.2)))).2

/-- Whatever the owner calls, and wherever there is no thread to be had, no
`std::thread` is destroyed while it can be joined; and `stop`,
`wait_for_shutdown` and the destructor end only after every thread that was
started has returned. -/
theorem owner_joins_workers (stable : threads.Stable)
    (start : (ownedSystem threads).initial first)
    (run : (ownedSystem threads).Execution first history last) :
    last.server.terminated = false ∧
      (last.Quiet ∨ last.occupation = .destroyed ∨ last.WaitEnds →
        last.AllReturned threads) := by
  have kept := kept_of_run stable start run last
    (TransitionSystem.last_mem_visited history last)
  refine ⟨kept.server.alive, fun ended => ?_⟩
  rcases ended with quiet | destroyed | ⟨index, waiting, past⟩
  · exact kept.quiet quiet
  · exact kept.quiet (kept.destroyed destroyed)
  · exact (kept.server.all_returned (kept.waiting index waiting).2 past).2

end OwnedServer

end

def briefThreads : WorkerThreads (List WorkerId) WorkerId where
  initial := []
  step := fun gone worker => some (worker :: gone)
  runner := some
  returned := fun gone worker => worker ∈ gone

theorem brief_stable : briefThreads.Stable := by
  intro gone label next worker step returned
  cases step
  exact decide_eq_true (List.mem_cons_of_mem label (of_decide_eq_true returned))

/-- There is a thread for the first worker only. -/
def secondThreadFails : List (OwnerLabel WorkerId) :=
  [.start, .advance, .advance, .threadFails, .worker 0, .waitForShutdown,
    .advance, .advance, .destroy, .advance, .advance, .advance, .advance]

theorem second_thread_fails_joined :
    ∃ last, TransitionSystem.runLabels (OwnedServer.step briefThreads)
        { server := .construct briefThreads 2 } secondThreadFails =
          some last ∧
      last.server.started = 1 ∧ last.server.terminated = false ∧
      last.AllReturned briefThreads := by
  have run : ∃ last, TransitionSystem.runLabels
      (OwnedServer.step briefThreads)
      { server := .construct briefThreads 2 } secondThreadFails = some last ∧
      last.server.started = 1 ∧ last.occupation = .destroyed :=
    ⟨_, rfl, rfl, rfl⟩
  obtain ⟨last, run, one, destroyed⟩ := run
  obtain ⟨alive, all⟩ := OwnedServer.owner_joins_workers brief_stable ⟨2, rfl⟩
    (.runLabels run)
  exact ⟨last, run, one, alive, all (.inr (.inl destroyed))⟩

end CoUring
