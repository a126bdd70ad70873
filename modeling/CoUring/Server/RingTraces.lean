import CoUring.Server.RingServer

namespace CoUring

open Foundation Server TransitionSystem

variable {size : RingSize 32} {state middle after : RingServer}
  {server moved : Server} {worker : WorkerId} {label : RingLabel}
  {labels more : List Label} {cqe : Cqe} {rest : List Cqe}
  {generated : SessionId}

/-! The other way round: what the server with the lists does, the loops do
statement by statement, as long as the completions fit into the queues. -/

def RingServer.Reaches (size : RingSize 32) (state : RingServer)
    (labels : List Label) (after : RingServer) : Prop :=
  (ringSystem size).Shows RingServer.seen state labels after

/-- No loop is inside its body. -/
structure RingServer.Rests (size : RingSize 32) (state : RingServer)
    (server : Server) : Prop where
  follows : state.Follows size (fun _ => none) server
  outside : ∀ worker, (state.loops worker).point ≠ .body

/-- The kernel has a free slot for the completion it posts. -/
def Server.hasRoom (size : RingSize 32) (server : Server) : Label → Bool
  | .complete worker _ _ =>
      decide ((server.workers worker).ioUring.cq.length < size.slots)
  | _ => true

namespace RingServer

theorem Reaches.refl : Reaches size state [] state := Shows.refl

theorem Reaches.step (reaches : Reaches size state labels middle)
    (healthy : middle.server.faulted = false)
    (performed : middle.perform size label = some after) :
    Reaches size state (labels ++ (middle.seen label).toList) after := by
  have step : middle.step size label = some after := by
    rw [RingServer.step, healthy]
    exact performed
  exact Shows.snoc reaches step

theorem Reaches.statement {state' : RingServer}
    (reaches : Reaches size state labels middle)
    (healthy : middle.server.faulted = false)
    (running : (middle.server.workers worker).phase = .dispatching)
    (stated : middle.statement size worker generated = some state') :
    Reaches size state (labels ++
      (middle.seen (.statement worker generated)).toList) state' := by
  refine reaches.step healthy ?_
  simp only [perform, running, if_true]
  exact stated

theorem Reaches.silent {state' : RingServer}
    (reaches : Reaches size state labels middle)
    (healthy : middle.server.faulted = false)
    (running : (middle.server.workers worker).phase = .dispatching)
    (stated : middle.statement size worker generated = some state')
    (unseen : middle.seen (.statement worker generated) = none) :
    Reaches size state labels state' := by
  have reached := reaches.statement healthy running stated
  rw [unseen, Option.toList_none, List.append_nil] at reached
  exact reached

@[simp] theorem setLoop_self (loop : RingLoop) :
    (state.setLoop worker loop).loops worker = loop := by
  simp [setLoop]

theorem setLoop_outside {loop : RingLoop}
    (outside : ∀ other, (state.loops other).point ≠ .body)
    (here : loop.point ≠ .body) (other : WorkerId) :
    ((state.setLoop worker loop).loops other).point ≠ .body := by
  by_cases same : other = worker
  · subst same
    rw [setLoop_self]
    exact here
  · simpa [setLoop, same] using outside other

/-- A worker that dispatches comes to the test of its loop. -/
theorem Rests.test (rests : state.Rests size server)
    (reachable : serverSystem.Reachable server)
    (running : (server.workers worker).phase = .dispatching)
    (generated : SessionId) :
    ∃ middle, Reaches size state [] middle ∧ middle.Rests size server ∧
      (middle.loops worker).point = .test ∧
      (middle.loops worker).head = (middle.loops worker).queue.head ∧
      (server.workers worker).ioUring.cq =
        (middle.loops worker).queue.contents size := by
  have healthy := rests.follows.healthy reachable
  have running' := rests.follows.phase.trans running
  cases rests.follows.loops worker with
  | left point pending =>
      have entered : Reaches size state [] _ :=
        Reaches.refl.silent healthy running'
          (@statement_left _ _ _ generated _ point) (by simp only [seen, point])
      refine ⟨_, entered, ⟨rests.follows.enter running rfl pending, ?_⟩, ?_⟩
      · exact setLoop_outside rests.outside PassPoint.noConfusion
      · rw [setLoop_self]
        exact ⟨rfl, rfl, pending⟩
  | test point running head pending =>
      exact ⟨state, .refl, rests, point, head, pending⟩
  | body point running head present pending =>
      exact absurd point (rests.outside worker)

structure Inside (size : RingSize 32) (state : RingServer) (server : Server)
    (worker : WorkerId) (half : WorkerId → Option Cqe)
    (middle : RingServer) : Prop where
  reached : Reaches size state [] middle
  follows : middle.Follows size half server
  elsewhere : ∀ other, other ≠ worker → half other = none
  others : ∀ other, other ≠ worker → middle.loops other = state.loops other

variable {half half' : WorkerId → Option Cqe} {fine : Server}
  {loop : RingLoop}

theorem others_setLoop (others : ∀ other, other ≠ worker →
      middle.loops other = state.loops other) (other : WorkerId)
    (different : other ≠ worker) :
    ((middle.setServer fine).setLoop worker loop).loops other =
      state.loops other := by
  simpa [setLoop, setServer, different] using others other different

theorem Inside.silent (inside : Inside size state server worker half middle)
    (reachable : serverSystem.Reachable server)
    (running : (server.workers worker).phase = .dispatching)
    (stated : middle.statement size worker generated =
      some ((middle.setServer fine).setLoop worker loop))
    (unseen : middle.seen (.statement worker generated) = none)
    (follows : ((middle.setServer fine).setLoop worker loop).Follows size
      half' server)
    (same : ∀ other, other ≠ worker → half' other = half other) :
    Inside size state server worker half'
      ((middle.setServer fine).setLoop worker loop) where
  reached := inside.reached.silent (inside.follows.healthy reachable)
    (inside.follows.phase.trans running) stated unseen
  follows := follows
  elsewhere := fun other different =>
    (same other different).trans (inside.elsewhere other different)
  others := others_setLoop inside.others

theorem Inside.store (inside : Inside size state server worker half middle)
    (reachable : serverSystem.Reachable server)
    (running : (server.workers worker).phase = .dispatching)
    (point : (middle.loops worker).point = .body) (generated : SessionId) :
    ∃ half' next address, Inside size state server worker half' next ∧
      (next.loops worker).point = .stored address := by
  have stage := inside.follows.loops worker
  generalize isHalf : half worker = taken at stage
  cases stage with
  | left isLeft => cases isLeft.symm.trans point
  | test isTest => cases isTest.symm.trans point
  | stored isStored => cases isStored.symm.trans point
  | released isReleased => cases isReleased.symm.trans point
  | body _ _ head present pending =>
      obtain ⟨address, carries, follows⟩ := inside.follows.store
        (ringsMatch_of_reachable reachable) running isHalf head present
        pending rfl
      refine ⟨_, _, address, inside.silent reachable running
        (@statement_body _ _ _ _ _ generated point rfl carries) ?_ follows
        fun _ different => Function.update_of_ne different _ _, ?_⟩
      · simp only [seen, point]
      · rw [setLoop_self]

theorem Inside.release (inside : Inside size state server worker half middle)
    (reachable : serverSystem.Reachable server)
    (running : (server.workers worker).phase = .dispatching)
    {address : SqeAddr}
    (point : (middle.loops worker).point = .stored address)
    (generated : SessionId) :
    ∃ next coroutine, Inside size state server worker half next ∧
      (next.loops worker).point = .released coroutine := by
  have stage := inside.follows.loops worker
  generalize isHalf : half worker = taken at stage
  cases stage with
  | left isLeft => cases isLeft.symm.trans point
  | test isTest => cases isTest.symm.trans point
  | body isBody => cases isBody.symm.trans point
  | released isReleased => cases isReleased.symm.trans point
  | stored isStored _ head present carries pending =>
      cases isStored.symm.trans point
      have follows := inside.follows.release
        (ringsMatch_of_reachable reachable) running isHalf head present
        carries pending
      refine ⟨_, (middle.server.sqeData address).bind SqeData.coroutine,
        inside.silent reachable running
          (@statement_stored _ _ _ _ generated point) ?_ follows
          fun _ _ => rfl, ?_⟩
      · simp only [seen, point]
      · rw [setLoop_self]

theorem Inside.resume (inside : Inside size state server worker half middle)
    (outside : ∀ other, (state.loops other).point ≠ .body)
    (reachable : serverSystem.Reachable server)
    (running : (server.workers worker).phase = .dispatching)
    {coroutine : Option FrameId}
    (point : (middle.loops worker).point = .released coroutine)
    (generated : SessionId) :
    ∃ moved after, Stepped server (.dispatch worker generated) moved ∧
      Reaches size state [.dispatch worker generated] after ∧
      after.Rests size moved := by
  have stage := inside.follows.loops worker
  generalize isHalf : half worker = taken at stage
  cases stage with
  | left isLeft => cases isLeft.symm.trans point
  | test isTest => cases isTest.symm.trans point
  | body isBody => cases isBody.symm.trans point
  | stored isStored => cases isStored.symm.trans point
  | released isReleased _ head carries resumed pending =>
      obtain ⟨moved, stepped, follows⟩ := inside.follows.resume
        (ringsMatch_of_reachable reachable) running isHalf head carries
        resumed pending generated
      have reached := inside.reached.statement
        (inside.follows.healthy reachable)
        (inside.follows.phase.trans running)
        (@statement_released _ _ _ _ generated isReleased)
      simp only [seen, isReleased, Option.toList_some,
        List.nil_append] at reached
      have quiet : Function.update half worker none = fun _ => none := by
        funext other
        by_cases same : other = worker
        · rw [same, Function.update_self]
        · rw [Function.update_of_ne same, inside.elsewhere other same]
      rw [quiet] at follows
      refine ⟨moved, _, stepped, reached, follows, fun other => ?_⟩
      by_cases same : other = worker
      · subst same
        rw [setLoop_self]
        exact PassPoint.noConfusion
      · rw [others_setLoop inside.others other same]
        exact outside other

/-- From its test a loop deals with the next completion in four
statements. -/
theorem Rests.deal (rests : state.Rests size server)
    (reachable : serverSystem.Reachable server)
    (running : (server.workers worker).phase = .dispatching)
    (point : (state.loops worker).point = .test)
    (head : (state.loops worker).head = (state.loops worker).queue.head)
    (pending : (server.workers worker).ioUring.cq =
      (state.loops worker).queue.contents size)
    (next : (server.workers worker).ioUring.cq = cqe :: rest)
    (generated : SessionId) :
    ∃ moved after, Stepped server (.dispatch worker generated) moved ∧
      Reaches size state [.dispatch worker generated] after ∧
      after.Rests size moved := by
  have more : (state.loops worker).head ≠
      (state.loops worker).queue.tail := by
    rw [head]
    intro same
    rw [pending, CircularQueue.contents_eq_nil.mpr same] at next
    cases next
  have start : Inside size state server worker (fun _ => none) state :=
    ⟨.refl, rests.follows, fun _ _ => rfl, fun _ _ => rfl⟩
  have looked := start.silent reachable running
    (@statement_more _ _ _ generated point more)
    (by simp only [seen, point]; exact if_neg more)
    (rests.follows.look running rfl head more pending) fun _ _ => rfl
  obtain ⟨half, stored, address, inside, isStored⟩ :=
    looked.store reachable running (by rw [setLoop_self]) generated
  obtain ⟨released, coroutine, inside', isReleased⟩ :=
    inside.release reachable running isStored generated
  exact inside'.resume rests.outside reachable running isReleased generated

theorem Rests.dispatch (rests : state.Rests size server)
    (reachable : serverSystem.Reachable server)
    (running : (server.workers worker).phase = .dispatching)
    (next : (server.workers worker).ioUring.cq = cqe :: rest)
    (generated : SessionId) :
    ∃ moved after, Stepped server (.dispatch worker generated) moved ∧
      Reaches size state [.dispatch worker generated] after ∧
      after.Rests size moved := by
  obtain ⟨middle, entered, rests', point, head, pending⟩ :=
    rests.test reachable running generated
  obtain ⟨moved, after, stepped, dealt, rests''⟩ :=
    rests'.deal reachable running point head pending next generated
  exact ⟨moved, after, stepped, Shows.trans entered dealt, rests''⟩

theorem Rests.endBatch (rests : state.Rests size server)
    (reachable : serverSystem.Reachable server)
    (running : (server.workers worker).phase = .dispatching)
    (empty : (server.workers worker).ioUring.cq = []) :
    ∃ moved after, Stepped server (.endBatch worker) moved ∧
      Reaches size state [.endBatch worker] after ∧
      after.Rests size moved := by
  obtain ⟨middle, entered, rests', point, head, pending⟩ :=
    rests.test reachable running ""
  have seen : (middle.loops worker).head =
      (middle.loops worker).queue.tail := by
    rw [empty] at pending
    exact head.trans (CircularQueue.contents_eq_nil.mp pending.symm)
  obtain ⟨moved, stepped, follows⟩ :=
    rests'.follows.leave running rfl head seen pending
  have left := entered.statement (rests'.follows.healthy reachable)
    (rests'.follows.phase.trans running)
    (@statement_seen _ _ _ "" point seen)
  simp only [RingServer.seen, point] at left
  rw [if_pos seen] at left
  refine ⟨moved, _, stepped, left, follows, ?_⟩
  exact setLoop_outside rests'.outside PassPoint.noConfusion

theorem Rests.aside (rests : state.Rests size server)
    (reachable : serverSystem.Reachable server) (label : RingLabel)
    {fine : Server} {action : Label} (performed : state.perform size label =
      some (state.setServer fine))
    (seen : state.seen label = some action)
    (follows : ∃ moved, Stepped server action moved ∧
      (state.setServer fine).Follows size (fun _ => none) moved) :
    ∃ moved after, Stepped server action moved ∧
      Reaches size state [action] after ∧ after.Rests size moved := by
  obtain ⟨moved, stepped, follows⟩ := follows
  have reached := Reaches.refl.step (rests.follows.healthy reachable)
    performed
  rw [seen] at reached
  exact ⟨moved, _, stepped, reached, follows, rests.outside⟩

theorem Rests.complete (rests : state.Rests size server)
    (reachable : serverSystem.Reachable server) {index : Nat}
    {result : KernelResult} {contents : Worker}
    (completed : (server.workers worker).complete index result =
      some contents)
    (room : server.hasRoom size (.complete worker index result) = true) :
    ∃ moved after, Stepped server (.complete worker index result) moved ∧
      Reaches size state [.complete worker index result] after ∧
      after.Rests size moved := by
  obtain ⟨phase, socket, -, cqe, cq⟩ := Worker.complete_same completed
  have pending : (server.workers worker).ioUring.cq =
      (state.loops worker).queue.contents size := by
    cases rests.follows.loops worker with
    | left _ pending => exact pending
    | test _ _ _ pending => exact pending
    | body point => exact absurd point (rests.outside worker)
  have free : (state.loops worker).queue.count < size.slots := by
    rw [Server.hasRoom, decide_eq_true_eq, pending, CircularQueue.contents,
      window_length] at room
    exact room
  obtain ⟨queue, pushed⟩ : ∃ queue,
      (state.loops worker).queue.push size cqe = some queue :=
    ⟨_, CircularQueue.push_eq_some.mpr ⟨free, rfl⟩⟩
  have answered : (state.server.workers worker).complete index result =
      some { contents.ahead worker none with
        ioUring := { contents.ioUring with cq := [cqe] } } := by
    rw [rests.follows.shown]
    refine (Worker.complete_ahead _ _ _).trans ?_
    rw [completed, Option.map_some, cq, List.drop_left]
  have posted : state.perform size (.complete worker index result) =
      some ((state.setServer (state.server.setWorker worker
        (contents.ahead worker none))).setLoop worker
          { state.loops worker with queue := queue }) := by
    simp only [perform, RingServer.complete, answered, Option.bind_some,
      List.head?_cons, pushed, Option.map_some]
    rfl
  obtain ⟨moved, stepped, follows⟩ := rests.follows.complete posted
  exact ⟨moved, _, stepped,
    Reaches.refl.step (rests.follows.healthy reachable) posted, follows,
    setLoop_outside rests.outside (rests.outside worker)⟩

/-- What the server with the lists does next, the loops do in some more
statements. -/
theorem Rests.step {action : Label} (rests : state.Rests size server)
    (reachable : serverSystem.Reachable server)
    (stepped : Stepped server action moved)
    (room : server.hasRoom size action = true) :
    ∃ moved after, Stepped server action moved ∧
      Reaches size state [action] after ∧ after.Rests size moved := by
  cases stepped with
  | @start worker outcome unstarted =>
      have idle := rests.follows.phase.trans unstarted
      refine rests.aside reachable (.start worker outcome) ?_ rfl
        (rests.follows.start idle)
      simp only [perform, Server.perform, idle, if_true, Option.map_some]
  | @submit worker looping =>
      have idle := rests.follows.phase.trans looping
      refine rests.aside reachable (.submit worker) ?_ rfl
        (rests.follows.submit idle)
      simp only [perform, Server.perform, idle, if_true, Option.map_some]
  | @submitFails worker looping =>
      have idle := rests.follows.phase.trans looping
      refine rests.aside reachable (.submitFails worker) ?_ rfl
        (rests.follows.submitFails idle)
      simp only [perform, Server.perform, idle, if_true, Option.map_some]
  | @wake worker submitted waiting present =>
      have idle := rests.follows.phase.trans waiting
      have arrived : (state.loops worker).queue.head ≠
          (state.loops worker).queue.tail := by
        obtain ⟨-, -, pending⟩ :=
          (rests.follows.loops worker).resting (by simp [waiting])
        rw [pending] at present
        exact fun same => present (CircularQueue.contents_eq_nil.mpr same)
      refine rests.aside reachable (.wake worker) ?_ rfl
        (rests.follows.wake idle arrived)
      simp only [perform, idle, arrived, if_false]
  | dispatch dispatching next =>
      exact rests.dispatch reachable dispatching next _
  | endBatch dispatching empty =>
      exact rests.endBatch reachable dispatching empty
  | complete completed => exact rests.complete reachable completed room
  | @cleanup order readings swept =>
      have cleaned : state.perform size (.cleanup order readings) =
          some (state.setServer { state.server with
            manager :=
              server.manager.cleanupExpiredSessions order readings
            clock := readings.getLast?.getD server.clock }) := by
        simp only [perform, Server.perform, rests.follows.manager,
          rests.follows.clock]
        rw [if_pos swept]
        rfl
      exact rests.aside reachable _ cleaned rfl
        ⟨_, .cleanup swept, rests.follows.aside⟩
  | @tick elapsed =>
      have ticked : state.perform size (.tick elapsed) =
          some (state.setServer { state.server with
            manager := server.manager
            clock := server.clock + elapsed }) := by
        simp only [perform, Server.perform, ← rests.follows.manager,
          ← rests.follows.clock]
        rfl
      exact rests.aside reachable _ ticked rfl
        ⟨_, .tick, rests.follows.aside⟩

end RingServer

open RingServer

theorem RingServer.Initial.rests (start : state.Initial) :
    state.Rests size {} where
  follows := start.follows
  outside := fun worker => by
    obtain ⟨observed, point, -⟩ := start.2 worker
    rw [point]
    exact PassPoint.noConfusion

theorem server_realized : Realization (ringSystem size) serverSystem
    RingServer.seen (fun server action => server.hasRoom size action = true)
    (RingServer.Rests size) where
  step := fun state server action next reachable rests room step => by
    obtain ⟨next', after, stepped, reaches, rests'⟩ :=
      rests.step reachable (step_cases step).2 room
    have same := stepped.step (sessionsKept_of_reachable reachable).healthy
    cases Option.some.inj (same.symm.trans step)
    exact ⟨after, reaches, rests'⟩

/-- Every run of the server with the lists in which the completions fit into
the queues is what the loops do, wherever the counters stand at first. -/
theorem lists_realized {history : List (Server × Label)} {last : Server}
    (run : serverSystem.Execution {} history last)
    (room : ∀ taken ∈ history, taken.1.hasRoom size taken.2 = true)
    {first : RingServer} (start : (ringSystem size).initial first) :
    ∃ history' after, (ringSystem size).Execution first history' after ∧
      observed RingServer.seen history' = trace history ∧
      after.Rests size last := by
  obtain ⟨after, ⟨history', run', same⟩, rests⟩ :=
    server_realized.follow (.initial rfl) (RingServer.Initial.rests start)
      run room
  exact ⟨history', after, run', same, rests⟩

/-- A client is accepted; the counters wrap around on the way. -/
theorem one_client_realized :
    ∃ history' after last,
      TransitionSystem.runLabels Server.step {}
        [.start 0 ⟨0, none, 0, some 3, 0⟩, .submit 0,
          .complete 0 0 (.accepted 7 true), .wake 0, .dispatch 0 "A",
          .endBatch 0] = some last ∧
      (ringSystem DispatchPass.fourSlots).Execution beforeWrap history'
        after ∧
      observed RingServer.seen history' =
        [.start 0 ⟨0, none, 0, some 3, 0⟩, .submit 0,
          .complete 0 0 (.accepted 7 true), .wake 0, .dispatch 0 "A",
          .endBatch 0] ∧
      after.Rests DispatchPass.fourSlots last := by
  have run : ∃ last, TransitionSystem.runLabels Server.step {}
      [.start 0 ⟨0, none, 0, some 3, 0⟩, .submit 0,
        .complete 0 0 (.accepted 7 true), .wake 0, .dispatch 0 "A",
        .endBatch 0] = some last := ⟨_, rfl⟩
  obtain ⟨last, run⟩ := run
  have start : (ringSystem DispatchPass.fourSlots).initial beforeWrap :=
    ⟨rfl, fun _ => ⟨_, rfl, rfl⟩⟩
  obtain ⟨history', after, run', same, rests⟩ :=
    lists_realized (.runLabels run) (List.all_eq_true.mp rfl) start
  exact ⟨history', after, last, run, run', same, rests⟩

end CoUring
