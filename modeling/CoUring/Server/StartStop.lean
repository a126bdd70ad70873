import CoUring.Server.GameServer

namespace CoUring

open Foundation

namespace GameServer

variable {State Label : Type} {threads : WorkerThreads State Label}
  {server before after first last : GameServer State}
  {label : GameServerLabel Label} {caller other : CallerId}
  {history : List (GameServer State × GameServerLabel Label)}

/-! Calls of `start` and `stop` from any number of threads. -/

/-- One start at most wins until the server is stopped again, and there are
never more worker threads than `worker_count_`. -/
structure AtMostOneStart (server : GameServer State) : Prop where
  wins : server.wins ≤ 1
  unjoined : server.unjoined ≤ server.workerCount

/-- A `start` passes its test while no other call is past its own, and a `stop`
while no `start` is. -/
def PassesAlone (server : GameServer State) :
    GameServerLabel Label → Prop
  | .start _ => server.running = false →
      ∀ other, server.callers other = .idle
  | .stop _ => server.running = true →
      ∀ other, ¬ (server.callers other).Starting
  | _ => True

structure Orderly (server : GameServer State) : Prop where
  alone : ∀ caller, (server.callers caller).Starting →
    ∀ other, other ≠ caller → server.callers other = .idle
  storing : ∀ caller, server.callers caller = .startStore →
    server.wins = 0 ∧ server.unjoined = 0
  spawning : ∀ caller index, server.callers caller = .startWorkers index →
    server.running = true ∧ server.wins = 0 ∧ server.unjoined ≤ index ∧
      index ≤ server.workerCount
  joining : ∀ caller index, server.callers caller = .stopJoin index →
    server.running = false ∧
      ∀ (position : Nat) (thread : WorkerThread), position < index →
        server.workerThreads[position]? = some thread →
        thread.joinable = false
  stopped : server.running = false →
    (∀ caller, ¬ (server.callers caller).Starting) →
    (∀ caller index, server.callers caller ≠ .stopJoin index) →
    server.wins = 0 ∧ server.unjoined = 0
  bounded : AtMostOneStart server

theorem moveTo_other {point : CallPoint} (different : other ≠ caller) :
    (server.moveTo caller point).callers other = server.callers other :=
  Function.update_of_ne different ..

theorem moveTo_cases {point found : CallPoint}
    (here : (server.moveTo caller point).callers other = found) :
    other = caller ∧ found = point ∨
      other ≠ caller ∧ server.callers other = found := by
  by_cases same : other = caller
  · subst same
    exact .inl ⟨rfl, here.symm.trans moveTo_self⟩
  · exact .inr ⟨same, (moveTo_other same).symm.trans here⟩

theorem unjoined_emplaceWorker :
    server.emplaceWorker.unjoined = server.unjoined + 1 := by
  simp [unjoined, emplaceWorker]

theorem unjoined_join {index : Nat} {thread : WorkerThread}
    (found : server.workerThreads[index]? = some thread) :
    (server.join index thread).unjoined ≤ server.unjoined := by
  obtain ⟨below, -⟩ := List.getElem?_eq_some_iff.mp found
  rw [unjoined, unjoined, join, List.countP_set below]
  simp only [Bool.false_eq_true, if_false, Nat.add_zero]
  exact Nat.sub_le _ _

theorem unjoined_eq_zero {index : Nat}
    (past : server.workerThreads.length ≤ index)
    (joined : ∀ (position : Nat) (thread : WorkerThread), position < index →
      server.workerThreads[position]? = some thread →
      thread.joinable = false) :
    server.unjoined = 0 := by
  refine List.countP_eq_zero.mpr fun thread member joinable => ?_
  obtain ⟨position, below, same⟩ := List.getElem_of_mem member
  have unjoinable := joined position thread (Nat.lt_of_lt_of_le below past)
    (List.getElem?_eq_some_iff.mpr ⟨below, same⟩)
  rw [unjoinable] at joinable
  cases joinable

theorem clearWorkers_eq (none : server.unjoined = 0) :
    server.clearWorkers = { server with workerThreads := [] } := by
  refine if_neg fun any => ?_
  obtain ⟨thread, member, joinable⟩ := List.any_eq_true.mp any
  exact List.countP_eq_zero.mp none thread member joinable

namespace Orderly

theorem congr (orderly : Orderly before)
    (callers : after.callers = before.callers)
    (running : after.running = before.running)
    (workerThreads : after.workerThreads = before.workerThreads)
    (workerCount : after.workerCount = before.workerCount)
    (wins : after.wins = before.wins) : Orderly after := by
  have unjoined : after.unjoined = before.unjoined :=
    congrArg (List.countP _) workerThreads
  obtain ⟨alone, storing, spawning, joining, stopped, bounded⟩ := orderly
  rw [← callers] at alone storing spawning joining stopped
  rw [← running] at spawning joining stopped
  rw [← workerThreads] at joining
  rw [← workerCount] at spawning
  rw [← wins, ← unjoined] at storing stopped
  simp only [← wins, ← unjoined] at spawning
  refine ⟨alone, storing, spawning, joining, stopped, ?_, ?_⟩
  · rw [wins]
    exact bounded.wins
  · rw [unjoined, workerCount]
    exact bounded.unjoined

variable {point : CallPoint}

theorem of_start
    (moved : after.callers = Function.update before.callers caller point)
    (others : ∀ other, other ≠ caller → before.callers other = .idle)
    (storing : point = .startStore → after.wins = 0 ∧ after.unjoined = 0)
    (spawning : ∀ index, point = .startWorkers index →
      after.running = true ∧ after.wins = 0 ∧ after.unjoined ≤ index ∧
        index ≤ after.workerCount)
    (joining : ∀ index, point ≠ .stopJoin index)
    (stopped : ¬ point.Starting → after.running = true)
    (bounded : AtMostOneStart after) : Orderly after := by
  have here : after.callers caller = point := by
    rw [moved, Function.update_self]
  have alone : ∀ other, other ≠ caller → after.callers other = .idle := by
    intro other different
    rw [moved, Function.update_of_ne different]
    exact others other different
  have sole : ∀ other, after.callers other ≠ .idle → other = caller :=
    fun other busy => not_imp_comm.mp (alone other) busy
  refine ⟨?_, ?_, ?_, ?_, ?_, bounded⟩
  · intro starter starting
    obtain rfl := sole starter fun idle => by
      rw [idle] at starting
      exact starting
    exact alone
  · intro starter storesNext
    obtain rfl := sole starter (by simp [storesNext])
    exact storing (here.symm.trans storesNext)
  · intro starter index spawns
    obtain rfl := sole starter (by simp [spawns])
    exact spawning index (here.symm.trans spawns)
  · intro stopper index joins
    obtain rfl := sole stopper (by simp [joins])
    exact absurd (here.symm.trans joins) (joining index)
  · intro isStopped noneStarts
    have unstarting := noneStarts caller
    rw [here] at unstarting
    cases isStopped.symm.trans (stopped unstarting)

theorem of_noneStarts
    (noneStarts : ∀ caller, ¬ (server.callers caller).Starting)
    (joining : ∀ caller index, server.callers caller = .stopJoin index →
      server.running = false ∧
        ∀ (position : Nat) (thread : WorkerThread), position < index →
          server.workerThreads[position]? = some thread →
          thread.joinable = false)
    (stopped : server.running = false →
      (∀ caller index, server.callers caller ≠ .stopJoin index) →
      server.wins = 0 ∧ server.unjoined = 0)
    (bounded : AtMostOneStart server) : Orderly server where
  alone := fun caller starting => absurd starting (noneStarts caller)
  storing := fun caller here =>
    absurd (here ▸ trivial) (noneStarts caller)
  spawning := fun caller _ here =>
    absurd (here ▸ trivial) (noneStarts caller)
  joining := joining
  stopped := fun isStopped _ => stopped isStopped
  bounded := bounded

theorem startPasses (orderly : Orderly server)
    (stopped : server.running = false)
    (alone : ∀ other, server.callers other = .idle) :
    Orderly (server.moveTo caller .startStore) := by
  have none : server.wins = 0 ∧ server.unjoined = 0 := by
    refine orderly.stopped stopped (fun caller starting => ?_)
      fun caller index here => ?_
    · rw [alone caller] at starting
      exact starting
    · rw [alone caller] at here
      cases here
  have bounded : AtMostOneStart (server.moveTo caller .startStore) :=
    ⟨orderly.bounded.wins, orderly.bounded.unjoined⟩
  exact of_start rfl (fun other _ => alone other) (fun _ => none) nofun nofun
    (absurd trivial) bounded

theorem storeTrue (orderly : Orderly server)
    (here : server.callers caller = .startStore) :
    Orderly ({ server with running := true }.moveTo caller
      (.startWorkers 0)) := by
  obtain ⟨wins, unjoined⟩ := orderly.storing caller here
  refine of_start rfl (orderly.alone caller (here ▸ trivial)) nofun
    (fun index same => ?_) nofun (fun _ => rfl)
    ⟨orderly.bounded.wins, orderly.bounded.unjoined⟩
  cases same
  exact ⟨rfl, wins, Nat.le_of_eq unjoined, Nat.zero_le _⟩

theorem emplace (orderly : Orderly server) {index : Nat}
    (here : server.callers caller = .startWorkers index)
    (below : index < server.workerCount) :
    Orderly (server.emplaceWorker.moveTo caller
      (.startWorkers (index + 1))) := by
  obtain ⟨running, wins, unjoined, -⟩ := orderly.spawning caller index here
  have grown : (server.emplaceWorker.moveTo caller
      (.startWorkers (index + 1))).unjoined ≤ index + 1 :=
    Nat.le_trans (Nat.le_of_eq unjoined_emplaceWorker)
      (Nat.succ_le_succ unjoined)
  refine of_start rfl (orderly.alone caller (here ▸ trivial)) nofun
    (fun index' same => ?_) nofun (fun _ => running)
    ⟨orderly.bounded.wins, Nat.le_trans grown below⟩
  cases same
  exact ⟨running, wins, grown, below⟩

theorem startReturns (orderly : Orderly server) {index : Nat}
    (here : server.callers caller = .startWorkers index) :
    Orderly (server.returnFrom caller (.start true)) := by
  obtain ⟨running, wins, -⟩ := orderly.spawning caller index here
  have won : (server.returnFrom caller (.start true)).wins ≤ 1 :=
    Nat.succ_le_succ (Nat.le_of_eq wins)
  exact of_start rfl (orderly.alone caller (here ▸ trivial)) nofun nofun nofun
    (fun _ => running) ⟨won, orderly.bounded.unjoined⟩

theorem noneStarts (orderly : Orderly server)
    (busy : server.callers caller ≠ .idle)
    (stopping : ¬ (server.callers caller).Starting) (other : CallerId) :
    ¬ (server.callers other).Starting := by
  intro starting
  by_cases same : caller = other
  · subst same
    exact stopping starting
  · exact busy (orderly.alone other starting caller same)

theorem noneStarts_moveTo
    (noneStarts : ∀ caller, ¬ (server.callers caller).Starting)
    (unstarting : ¬ point.Starting) (other : CallerId) :
    ¬ ((server.moveTo caller point).callers other).Starting := by
  by_cases same : other = caller
  · subst same
    rw [moveTo_self]
    exact unstarting
  · rw [moveTo_other same]
    exact noneStarts other

theorem stopPasses (orderly : Orderly server)
    (running : server.running = true)
    (noneStarts : ∀ other, ¬ (server.callers other).Starting) :
    Orderly (server.moveTo caller .stopStore) := by
  refine of_noneStarts (noneStarts_moveTo noneStarts nofun)
    (fun stopper index joins => ?_) (fun stopped => ?_)
    ⟨orderly.bounded.wins, orderly.bounded.unjoined⟩
  · rcases moveTo_cases joins with ⟨-, other⟩ | ⟨-, earlier⟩
    · cases other
    · exact orderly.joining stopper index earlier
  · cases running.symm.trans stopped

theorem storeFalse (orderly : Orderly server)
    (here : server.callers caller = .stopStore) :
    Orderly ({ server with running := false }.moveTo caller
      (.stopJoin 0)) := by
  have noneStarts := orderly.noneStarts (by rw [here]; nofun)
    (by rw [here]; nofun)
  refine of_noneStarts (noneStarts_moveTo noneStarts nofun)
    (fun stopper index joins => ?_) (fun stopped noneJoins => ?_)
    ⟨orderly.bounded.wins, orderly.bounded.unjoined⟩
  · rcases moveTo_cases joins with ⟨-, same⟩ | ⟨-, earlier⟩
    · cases same
      exact ⟨rfl, fun position thread below => absurd below
        (Nat.not_lt_zero _)⟩
    · exact ⟨rfl, (orderly.joining stopper index earlier).2⟩
  · exact absurd moveTo_self (noneJoins caller 0)

theorem joinsNext (orderly : Orderly server) {index : Nat}
    (here : server.callers caller = .stopJoin index)
    (moved : after.callers =
      Function.update server.callers caller (.stopJoin (index + 1)))
    (running : after.running = server.running)
    (joined : ∀ thread, after.workerThreads[index]? = some thread →
      thread.joinable = false)
    (others : ∀ position, position ≠ index →
      after.workerThreads[position]? = server.workerThreads[position]?)
    (bounded : AtMostOneStart after) : Orderly after := by
  have noneStarts : ∀ other, ¬ ((server.moveTo caller
      (.stopJoin (index + 1))).callers other).Starting :=
    noneStarts_moveTo (orderly.noneStarts (by rw [here]; nofun)
      (by rw [here]; nofun)) nofun
  refine of_noneStarts (fun other => ?_) (fun stopper index' joins => ?_)
    (fun _ noneJoins => ?_) bounded
  · rw [moved]
    exact noneStarts other
  · rw [running]
    refine ⟨(orderly.joining caller index here).1,
      fun position thread below found => ?_⟩
    by_cases same : position = index
    · subst same
      exact joined thread found
    · rw [others position same] at found
      rw [moved] at joins
      rcases moveTo_cases joins with ⟨-, point⟩ | ⟨-, joins⟩
      · cases point
        exact (orderly.joining caller index here).2 position thread
          (Nat.lt_of_le_of_ne (Nat.lt_succ_iff.mp below) same) found
      · exact (orderly.joining stopper index' joins).2 position thread below
          found
  · refine absurd ?_ (noneJoins caller (index + 1))
    rw [moved, Function.update_self]

theorem skip (orderly : Orderly server) {index : Nat} {thread : WorkerThread}
    (here : server.callers caller = .stopJoin index)
    (found : server.workerThreads[index]? = some thread)
    (joined : thread.joinable = false) :
    Orderly (server.moveTo caller (.stopJoin (index + 1))) := by
  refine orderly.joinsNext here rfl rfl (fun other same => ?_)
    (fun _ _ => rfl) ⟨orderly.bounded.wins, orderly.bounded.unjoined⟩
  cases found.symm.trans same
  exact joined

theorem join (orderly : Orderly server) {index : Nat} {thread : WorkerThread}
    (here : server.callers caller = .stopJoin index)
    (found : server.workerThreads[index]? = some thread) :
    Orderly ((server.join index thread).moveTo caller
      (.stopJoin (index + 1))) := by
  obtain ⟨below, -⟩ := List.getElem?_eq_some_iff.mp found
  refine orderly.joinsNext here rfl rfl (fun other same => ?_)
    (fun position different => List.getElem?_set_ne different.symm)
    ⟨orderly.bounded.wins,
      Nat.le_trans (unjoined_join found) orderly.bounded.unjoined⟩
  have joined := (List.getElem?_set_self below).symm.trans same
  cases joined
  rfl

theorem clear (orderly : Orderly server) {index : Nat}
    (here : server.callers caller = .stopJoin index)
    (past : server.workerThreads.length ≤ index) :
    Orderly (server.clearWorkers.returnFrom caller (.stop true)) := by
  obtain ⟨stopped, joined⟩ := orderly.joining caller index here
  rw [clearWorkers_eq (unjoined_eq_zero past joined)]
  have noneStarts := orderly.noneStarts (by rw [here]; nofun)
    (by rw [here]; nofun)
  refine of_noneStarts (noneStarts_moveTo noneStarts nofun)
    (fun stopper index' joins => ?_) (fun _ _ => ⟨rfl, rfl⟩)
    ⟨Nat.zero_le _, Nat.zero_le _⟩
  exact ⟨stopped, fun position thread _ found => by cases found⟩

theorem step (orderly : Orderly before) (alone : PassesAlone before label)
    (stepped : Stepped threads before label after) : Orderly after := by
  cases stepped with
  | startRefused idle running =>
      refine orderly.congr ?_ rfl rfl rfl rfl
      exact (congrArg _ idle.symm).trans (Function.update_eq_self ..)
  | startPasses idle stopped =>
      exact orderly.startPasses stopped (alone stopped)
  | stopRefused idle stopped =>
      refine orderly.congr ?_ rfl rfl rfl rfl
      exact (congrArg _ idle.symm).trans (Function.update_eq_self ..)
  | stopPasses idle running => exact orderly.stopPasses running (alone running)
  | storeTrue here => exact orderly.storeTrue here
  | emplace here below => exact orderly.emplace here below
  | startReturns here all => exact orderly.startReturns here
  | storeFalse here => exact orderly.storeFalse here
  | skip here found joined => exact orderly.skip here found joined
  | join here found joinable returned => exact orderly.join here found
  | clear here past => exact orderly.clear here past
  | worker isStarted stepped => exact orderly.congr rfl rfl rfl rfl rfl

end Orderly

theorem orderly_construct (workerCount : Nat) :
    Orderly (construct threads workerCount) where
  alone := nofun
  storing := nofun
  spawning := nofun
  joining := nofun
  stopped := fun _ _ _ => ⟨rfl, rfl⟩
  bounded := ⟨Nat.zero_le _, Nat.zero_le _⟩

/-- At most one start wins in the runs whose calls pass their tests alone. -/
theorem one_start_wins_when_alone
    (start : (gameServerSystem threads).initial first)
    (run : (gameServerSystem threads).Execution first history last)
    (alone : ∀ taken ∈ history, PassesAlone taken.1 taken.2) :
    ∀ server ∈ TransitionSystem.visited history last,
      AtMostOneStart server := by
  obtain ⟨workerCount, rfl⟩ := start
  have orderly := (run.restricted alone).forall_visited
    (orderly_construct workerCount)
    fun server label next orderly step =>
      Orderly.step orderly step.1 (step_cases step.2).2
  exact fun server member => (orderly server member).bounded

/-- A thread starts the server while another waits to do the same, and the
other one then stops it. -/
def startThenStop : List (GameServerLabel EventLoopLabel) :=
  [.start 0, .advance 0, .advance 0, .start 1, .advance 0, .stop 1,
    .advance 1]

theorem second_start_refused :
    ∃ last, TransitionSystem.runLabels (step eventLoopThreads)
        (construct eventLoopThreads 1) startThenStop = some last ∧
      last.returns = [.start true, .start false] ∧
      ∀ server ∈ TransitionSystem.visited (TransitionSystem.traceLabels
          (step eventLoopThreads) (construct eventLoopThreads 1)
          startThenStop) last,
        AtMostOneStart server := by
  have run : ∃ last, TransitionSystem.runLabels (step eventLoopThreads)
      (construct eventLoopThreads 1) startThenStop = some last ∧
      last.returns = [.start true, .start false] := ⟨_, rfl, rfl⟩
  obtain ⟨last, run, returns⟩ := run
  refine ⟨last, run, returns,
    one_start_wins_when_alone ⟨1, rfl⟩ (.runLabels run) ?_⟩
  have trace : TransitionSystem.traceLabels (step eventLoopThreads)
      (construct eventLoopThreads 1) startThenStop =
        [(_, _), (_, _), (_, _), (_, _), (_, _), (_, _), (_, _)] := rfl
  rw [trace]
  simp only [List.forall_mem_cons]
  refine ⟨fun _ _ => rfl, trivial, trivial, nofun, trivial, ?_, trivial,
    List.forall_mem_nil _⟩
  rintro _ (_ | other)
  · nofun
  · cases other with
    | zero => nofun
    | succ other => nofun

/-- Both threads read `running_` before either has set it. -/
def bothStart : List (GameServerLabel EventLoopLabel) :=
  [.start 0, .start 1, .advance 0, .advance 0, .advance 0, .advance 1,
    .advance 1, .advance 1]

theorem two_starts_win :
    ∃ last, TransitionSystem.runLabels (step eventLoopThreads)
        (construct eventLoopThreads 1) bothStart = some last ∧
      last.wins = 2 ∧ last.unjoined = 2 ∧ ¬ AtMostOneStart last := by
  have run : ∃ last, TransitionSystem.runLabels (step eventLoopThreads)
      (construct eventLoopThreads 1) bothStart = some last ∧
      last.wins = 2 ∧ last.unjoined = 2 := ⟨_, rfl, rfl, rfl⟩
  obtain ⟨last, run, wins, unjoined⟩ := run
  refine ⟨last, run, wins, unjoined, fun atMostOne => ?_⟩
  have bound := atMostOne.wins
  rw [wins] at bound
  exact absurd bound (by decide)

end GameServer

end CoUring
