import CoUring.Server.Machine

namespace CoUring

/-! What the kernel's and the event loop's elementary steps do to a worker. -/

variable {worker next : Worker} {index : Nat} {result : KernelResult}

theorem ProvidedBuffers.completeRecv_cases {buffers left : ProvidedBuffers}
    {address : SqeAddr} {cqe : Cqe}
    (completed : buffers.completeRecv address result = some (cqe, left)) :
    (∃ bytes bufferId selected, bytes ≠ [] ∧
      bytes.length ≤ IoUring.bufSize ∧
      buffers.select = some (bufferId, selected) ∧
      cqe = ⟨some address, bytes.length, bufferFlags bufferId⟩ ∧
      left = selected.fill bufferId bytes) ∨
    (∃ bufferId, buffers.select = some (bufferId, left) ∧
      cqe = ⟨some address, 0, bufferFlags bufferId⟩) ∨
    (∃ res, res ≤ 0 ∧ (res = -enobufs → buffers.select = none) ∧
      cqe = ⟨some address, res, 0⟩ ∧ left = buffers) := by
  cases result with
  | accepted res more => cases completed
  | received bytes =>
      simp only [completeRecv, Option.ite_none_right_eq_some,
        Option.map_eq_some_iff, Prod.mk.injEq] at completed
      obtain ⟨⟨nonempty, fits⟩, ⟨bufferId, selected⟩, taken, posted,
        filled⟩ := completed
      exact .inl ⟨bytes, bufferId, selected, nonempty, fits, taken,
        posted.symm, filled.symm⟩
  | ended selects =>
      cases selects with
      | false =>
          cases completed
          exact .inr (.inr
            ⟨0, Int.le_refl 0, (by simp [enobufs]), rfl, rfl⟩)
      | true =>
          simp only [completeRecv, Option.map_eq_some_iff,
            Prod.mk.injEq] at completed
          obtain ⟨⟨bufferId, selected⟩, taken, posted, rfl⟩ := completed
          exact .inr (.inl ⟨bufferId, taken, posted.symm⟩)
  | recvFailed res =>
      simp only [completeRecv, Option.ite_none_right_eq_some,
        Option.some.injEq, Prod.mk.injEq] at completed
      obtain ⟨⟨negative, starved⟩, posted, rfl⟩ := completed
      exact .inr (.inr ⟨res, negative.le, starved, posted.symm, rfl⟩)
  | sent res => cases completed

theorem ProvidedBuffers.completeRecv_userData
    {buffers left : ProvidedBuffers} {address : SqeAddr} {cqe : Cqe}
    (completed : buffers.completeRecv address result = some (cqe, left)) :
    cqe.userData = some address := by
  rcases completeRecv_cases completed with
    ⟨_, _, _, _, _, _, rfl, _⟩ | ⟨_, _, rfl⟩ | ⟨_, _, _, rfl, _⟩
  · rfl
  · rfl
  · rfl

/-- The kernel answers a request it works on with one completion that carries
the request's user data. -/
theorem Worker.complete_cases
    (completed : worker.complete index result = some next) :
    ∃ request, worker.ioUring.inflight[index]? = some request ∧
      ((∃ res more, request.operation = .multishotAccept ∧
          next = { worker with
            ioUring := { worker.ioUring with
              inflight :=
                if more then worker.ioUring.inflight
                else worker.ioUring.inflight.eraseIdx index
              cq := worker.ioUring.cq ++
                [⟨some request.userData, res, moreFlags more⟩] } }) ∨
        (∃ cqe buffers, request.operation = .recv ∧
          worker.buffers.completeRecv request.userData result =
            some (cqe, buffers) ∧
          next = { worker with
            buffers := buffers
            ioUring := { worker.ioUring with
              inflight := worker.ioUring.inflight.eraseIdx index
              cq := worker.ioUring.cq ++ [cqe] } }) ∨
        ∃ buf res, request.operation = .send buf ∧
          next = { worker with
            ioUring := { worker.ioUring with
              inflight := worker.ioUring.inflight.eraseIdx index
              cq := worker.ioUring.cq ++
                [⟨some request.userData, res, 0⟩] } }) := by
  obtain ⟨request, found, answered⟩ := Option.bind_eq_some_iff.mp completed
  refine ⟨request, found, ?_⟩
  cases operation : request.operation with
  | multishotAccept =>
      rw [operation] at answered
      cases result with
      | accepted res more =>
          exact .inl ⟨res, more, rfl, (Option.some.inj answered).symm⟩
      | received bytes => cases answered
      | ended selects => cases answered
      | recvFailed res => cases answered
      | sent res => cases answered
  | recv =>
      rw [operation] at answered
      obtain ⟨⟨cqe, buffers⟩, received, posted⟩ :=
        Option.map_eq_some_iff.mp answered
      exact .inr (.inl ⟨cqe, buffers, rfl, received, posted.symm⟩)
  | send buf =>
      rw [operation] at answered
      cases result with
      | accepted res more => cases answered
      | received bytes => cases answered
      | ended selects => cases answered
      | recvFailed res => cases answered
      | sent res =>
          obtain ⟨-, posted⟩ := Option.ite_none_right_eq_some.mp answered
          exact .inr (.inr ⟨buf, res, rfl, (Option.some.inj posted).symm⟩)

theorem Worker.complete_same
    (completed : worker.complete index result = some next) :
    next.phase = worker.phase ∧ next.socketServer = worker.socketServer ∧
      next.dispatched = worker.dispatched ∧
      ∃ cqe, next.ioUring.cq = worker.ioUring.cq ++ [cqe] := by
  obtain ⟨request, -, answered⟩ := complete_cases completed
  rcases answered with
    ⟨res, more, -, rfl⟩ | ⟨cqe, buffers, -, -, rfl⟩ | ⟨buf, res, -, rfl⟩
  · exact ⟨rfl, rfl, rfl, _, rfl⟩
  · exact ⟨rfl, rfl, rfl, _, rfl⟩
  · exact ⟨rfl, rfl, rfl, _, rfl⟩

theorem Server.initStages_same (outcome : InitOutcome) (contents : Worker) :
    (initStages outcome contents).1.phase = contents.phase ∧
      (initStages outcome contents).1.ioUring = contents.ioUring ∧
      (initStages outcome contents).1.dispatched = contents.dispatched := by
  unfold initStages
  dsimp only
  repeat' split
  all_goals exact ⟨rfl, rfl, rfl⟩

theorem Server.initStages_socketServer (outcome : InitOutcome)
    (contents : Worker) :
    ((initStages outcome contents).2 = false ∧
      (initStages outcome contents).1.socketServer =
        contents.socketServer) ∨
    (initStages outcome contents).2 = true ∧
      ∃ rawFd, (initStages outcome contents).1.socketServer =
        some { file := .adopt rawFd } := by
  unfold initStages
  dsimp only
  repeat' split
  · exact .inl ⟨rfl, rfl⟩
  · exact .inl ⟨rfl, rfl⟩
  · exact .inl ⟨rfl, rfl⟩
  · exact .inl ⟨rfl, rfl⟩
  · exact .inr ⟨rfl, _, rfl⟩

theorem Server.initStages_bound {outcome : InitOutcome} {contents : Worker}
    {rawFd : RawFd} (ready : (initStages outcome contents).2 = true)
    (socket : (initStages outcome contents).1.socketServer =
      some { file := .adopt rawFd }) : outcome.bound = some rawFd := by
  unfold initStages at ready socket
  dsimp only at ready socket
  split at ready
  · cases ready
  · split at ready
    · cases ready
    next opens registers =>
      rw [if_neg opens, if_neg registers] at socket
      cases bound : outcome.bound with
      | none =>
          rw [bound] at ready
          cases ready
      | some other =>
          rw [bound] at ready socket
          dsimp only at ready socket
          split at ready
          · cases ready
          next listens =>
            rw [if_neg listens] at socket
            cases socket
            rfl

namespace Server

inductive Stepped (server : Server) : Label → Server → Prop
  | start {worker : WorkerId} {outcome : InitOutcome}
      (unstarted : (server.workers worker).phase = .notStarted) :
      Stepped server (.start worker outcome)
        (server.startWorker worker outcome)
  | submit {worker : WorkerId}
      (looping : (server.workers worker).phase = .looping) :
      Stepped server (.submit worker)
        (server.setWorker worker (server.workers worker).submit)
  | submitFails {worker : WorkerId}
      (looping : (server.workers worker).phase = .looping) :
      Stepped server (.submitFails worker)
        (server.setWorker worker
          { server.workers worker with phase := .dispatching })
  | wake {worker : WorkerId} {submitted : Nat}
      (waiting : (server.workers worker).phase = .waiting submitted)
      (present : (server.workers worker).ioUring.cq ≠ []) :
      Stepped server (.wake worker)
        (server.setWorker worker ((server.workers worker).wake submitted))
  | dispatch {worker : WorkerId} {generated : SessionId} {cqe : Cqe}
      {rest : List Cqe}
      (dispatching : (server.workers worker).phase = .dispatching)
      (next : (server.workers worker).ioUring.cq = cqe :: rest) :
      Stepped server (.dispatch worker generated)
        ((server.setWorker worker
          ((server.workers worker).seen cqe rest)).dispatchCqe worker cqe
            generated)
  | endBatch {worker : WorkerId}
      (dispatching : (server.workers worker).phase = .dispatching)
      (empty : (server.workers worker).ioUring.cq = []) :
      Stepped server (.endBatch worker)
        (server.setWorker worker
          { server.workers worker with phase := .looping })
  | complete {worker : WorkerId} {index : Nat} {result : KernelResult}
      {contents : Worker}
      (completed : (server.workers worker).complete index result =
        some contents) :
      Stepped server (.complete worker index result)
        (server.setWorker worker contents)
  | cleanup {order : List SessionEntry} {readings : List Nat}
      (swept : order.Perm server.manager.sessions.entries ∧
        readings.length = order.length ∧
        (server.clock :: readings).Pairwise (· ≤ ·)) :
      Stepped server (.cleanup order readings)
        { server with
          manager := server.manager.cleanupExpiredSessions order readings
          clock := readings.getLast?.getD server.clock }
  | tick {elapsed : Nat} :
      Stepped server (.tick elapsed)
        { server with clock := server.clock + elapsed }

theorem step_cases {server next : Server} {label : Label}
    (step : server.step label = some next) :
    server.faulted = false ∧ Stepped server label next := by
  rw [Server.step] at step
  split at step
  · cases step
  next healthy =>
    refine ⟨by simpa using healthy, ?_⟩
    cases label with
    | start worker outcome =>
        obtain ⟨unstarted, same⟩ := Option.ite_none_right_eq_some.mp step
        cases same
        exact .start unstarted
    | submit worker =>
        obtain ⟨looping, same⟩ := Option.ite_none_right_eq_some.mp step
        cases same
        exact .submit looping
    | submitFails worker =>
        obtain ⟨looping, same⟩ := Option.ite_none_right_eq_some.mp step
        cases same
        exact .submitFails looping
    | wake worker =>
        simp only [perform] at step
        split at step
        next submitted waiting =>
          obtain ⟨present, same⟩ := Option.ite_none_left_eq_some.mp step
          cases same
          exact .wake waiting present
        next other => cases step
    | dispatch worker generated =>
        obtain ⟨dispatching, taken⟩ := Option.ite_none_right_eq_some.mp step
        split at taken
        next empty => cases taken
        next cqe rest next =>
          cases taken
          exact .dispatch dispatching next
    | endBatch worker =>
        obtain ⟨⟨dispatching, empty⟩, same⟩ :=
          Option.ite_none_right_eq_some.mp step
        cases same
        exact .endBatch dispatching empty
    | complete worker index result =>
        obtain ⟨contents, completed, rfl⟩ := Option.map_eq_some_iff.mp step
        exact .complete completed
    | cleanup order readings =>
        obtain ⟨swept, same⟩ := Option.ite_none_right_eq_some.mp step
        cases same
        exact .cleanup swept
    | tick elapsed =>
        cases step
        exact .tick

theorem Stepped.step {server next : Server} {label : Label}
    (stepped : Stepped server label next)
    (healthy : server.faulted = false) : server.step label = some next := by
  rw [Server.step, if_neg (by simp [healthy])]
  cases stepped with
  | start unstarted => exact if_pos unstarted
  | submit looping => exact if_pos looping
  | submitFails looping => exact if_pos looping
  | wake waiting present => simp [perform, waiting, present]
  | dispatch dispatching next => simp [perform, dispatching, next]
  | endBatch dispatching empty => exact if_pos ⟨dispatching, empty⟩
  | complete completed => simp [perform, completed]
  | cleanup swept => exact if_pos swept
  | tick => rfl

end Server

end CoUring
