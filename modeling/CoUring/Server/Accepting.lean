import CoUring.Server.Start

namespace CoUring

open Foundation Server

variable {server before after : Server} {worker : WorkerId}

namespace IoUring

def Armed (ring : IoUring) (worker : WorkerId) : Prop :=
  .acceptGuard worker ∈ (ring.sq ++ ring.inflight).map Request.userData

def AcceptPosted (completions : List Cqe) (worker : WorkerId) : Prop :=
  .acceptGuard worker ∈ completions.filterMap Cqe.userData

variable {ring : IoUring} {listening : Option File}

theorem mem_outstanding_acceptGuard :
    .acceptGuard worker ∈ ring.outstanding ↔
      ring.Armed worker ∨ AcceptPosted ring.cq worker := by
  simp only [outstanding, Armed, AcceptPosted, List.mem_append,
    List.map_append]

/-- The accept requests of a ring: at most one, of the listening socket, and
`F_MORE` tells of a completion whether another one is still to come. -/
structure AcceptKept (ring : IoUring) (worker : WorkerId)
    (listening : Option File) : Prop where
  socket : ∀ request, request ∈ ring.sq ++ ring.inflight →
    request.userData = .acceptGuard worker →
    ∃ file, listening = some file ∧
      request = ⟨.multishotAccept, file.getRawFd, .acceptGuard worker⟩
  once : ((ring.sq ++ ring.inflight).map Request.userData).count
    (.acceptGuard worker) ≤ 1
  more : ∀ earlier cqe later, ring.cq = earlier ++ cqe :: later →
    cqe.userData = some (.acceptGuard worker) →
    (hasMore cqe.flags = true ↔
      ring.Armed worker ∨ AcceptPosted later worker)

theorem AcceptKept.empty : AcceptKept {} worker listening where
  socket := fun request member => by simp at member
  once := by simp
  more := fun earlier cqe later same => by simp at same

theorem AcceptKept.queueRequest (kept : AcceptKept ring worker listening)
    {request : Request} (other : request.userData ≠ .acceptGuard worker) :
    AcceptKept (ring.queueRequest request) worker listening := by
  by_cases room : ring.sq.length < queueSize
  · rw [queueRequest_room request room]
    refine ⟨?_, ?_, ?_⟩
    · intro queued member isAccept
      simp only [List.mem_append, List.mem_singleton] at member
      rcases member with (earlier | rfl) | earlier
      · exact kept.socket queued (List.mem_append_left _ earlier) isAccept
      · exact absurd isAccept other
      · exact kept.socket queued (List.mem_append_right _ earlier) isAccept
    · have once := kept.once
      simp only [List.map_append, List.count_append] at once ⊢
      simpa [List.count_cons, other] using once
    · intro earlier cqe later same isAccept
      rw [kept.more earlier cqe later same isAccept]
      simp [Armed, Ne.symm other]
  · rwa [queueRequest_full request room]

theorem AcceptKept.submit (kept : AcceptKept ring worker listening) :
    AcceptKept { ring with sq := [], inflight := ring.inflight ++ ring.sq }
      worker listening := by
  have moved : (ring.inflight ++ ring.sq).Perm (ring.sq ++ ring.inflight) :=
    List.perm_append_comm
  refine ⟨?_, ?_, ?_⟩
  · intro request member
    exact kept.socket request (moved.mem_iff.mp member)
  · exact ((moved.map _).count_eq _).trans_le kept.once
  · intro earlier cqe later same isAccept
    rw [kept.more earlier cqe later same isAccept]
    exact or_congr_left ((moved.map _).mem_iff).symm

theorem AcceptKept.seen {cqe : Cqe} {rest : List Cqe}
    (kept : AcceptKept ring worker listening) (next : ring.cq = cqe :: rest) :
    AcceptKept { ring with cq := rest } worker listening where
  socket := kept.socket
  once := kept.once
  more := fun earlier other later same =>
    kept.more (cqe :: earlier) other later (by rw [next]; simp_all)

theorem AcceptKept.posted {cqe : Cqe} {inflight : List Request}
    (kept : AcceptKept ring worker listening)
    (fewer : inflight.Sublist ring.inflight)
    (foreign : cqe.userData ≠ some (.acceptGuard worker) →
      (.acceptGuard worker ∈ inflight.map Request.userData ↔
        .acceptGuard worker ∈ ring.inflight.map Request.userData))
    (own : cqe.userData = some (.acceptGuard worker) → ring.Armed worker ∧
      (hasMore cqe.flags = true ↔ .acceptGuard worker ∈
        (ring.sq ++ inflight).map Request.userData)) :
    AcceptKept { ring with inflight := inflight, cq := ring.cq ++ [cqe] }
      worker listening := by
  have sublist : (ring.sq ++ inflight).Sublist (ring.sq ++ ring.inflight) :=
    fewer.append_left ring.sq
  refine ⟨?_, ?_, ?_⟩
  · intro request member
    exact kept.socket request (sublist.subset member)
  · exact (sublist.map _).count_le _ |>.trans kept.once
  · intro earlier other later same isAccept
    rcases List.eq_nil_or_concat later with rfl | ⟨between, last, rfl⟩
    · obtain ⟨-, added⟩ := List.append_inj' same rfl
      cases added
      rw [(own isAccept).2, Armed, AcceptPosted]
      simp
    · have split : earlier ++ other :: between.concat last =
          (earlier ++ other :: between) ++ [last] := by simp
      rw [split] at same
      obtain ⟨old, added⟩ := List.append_inj' same rfl
      cases added
      have more := kept.more earlier other between old isAccept
      by_cases isOwn : cqe.userData = some (.acceptGuard worker)
      · have stays := more.mpr (.inl (own isOwn).1)
        simp [stays, AcceptPosted, isOwn]
      · rw [more]
        simp only [Armed, AcceptPosted, List.map_append, List.mem_append,
          foreign isOwn, List.concat_eq_append, List.filterMap_append]
        refine or_congr_right ?_
        simp [isOwn]

theorem AcceptKept.answered (kept : AcceptKept ring worker listening)
    {index : Nat} {request : Request} {cqe : Cqe}
    (found : ring.inflight[index]? = some request)
    (carries : cqe.userData = some request.userData)
    (other : request.userData ≠ .acceptGuard worker) :
    AcceptKept { ring with
      inflight := ring.inflight.eraseIdx index
      cq := ring.cq ++ [cqe] } worker listening := by
  refine kept.posted (List.eraseIdx_sublist _ _) (fun _ => ?_) ?_
  · rw [(inflight_perm found).mem_iff, List.mem_cons]
    exact (or_iff_right other.symm).symm
  · intro isOwn
    rw [carries] at isOwn
    exact absurd (Option.some.inj isOwn) other

theorem AcceptKept.accepted (kept : AcceptKept ring worker listening)
    {index : Nat} {request : Request} {res : Int} (more : Bool)
    (found : ring.inflight[index]? = some request)
    (isAccept : request.userData = .acceptGuard worker) :
    AcceptKept { ring with
      inflight :=
        if more then ring.inflight else ring.inflight.eraseIdx index
      cq := ring.cq ++ [⟨some request.userData, res, moreFlags more⟩] }
      worker listening := by
  have member : .acceptGuard worker ∈
      ring.inflight.map Request.userData := by
    rw [(inflight_perm found).mem_iff, isAccept]
    exact List.mem_cons_self
  have armed : ring.Armed worker := by
    rw [Armed, List.map_append]
    exact List.mem_append_right _ member
  have own : some request.userData = some (.acceptGuard worker) :=
    congrArg some isAccept
  cases more with
  | true =>
      refine kept.posted (List.Sublist.refl _)
        (fun foreign => absurd own foreign) fun _ => ⟨armed, ?_⟩
      rw [hasMore_moreFlags]
      exact iff_of_true rfl armed
  | false =>
      refine kept.posted (List.eraseIdx_sublist _ _)
        (fun foreign => absurd own foreign) fun _ => ⟨armed, ?_⟩
      rw [hasMore_moreFlags, if_neg Bool.false_ne_true]
      refine iff_of_false Bool.false_ne_true fun again => ?_
      have once := kept.once
      have twice := List.count_pos_iff.mpr again
      simp only [List.map_append, List.count_append,
        (inflight_perm found).count_eq, isAccept, List.count_cons_self]
        at once twice
      omega

theorem AcceptKept.first {file : File} :
    AcceptKept
      { sq := [⟨.multishotAccept, file.getRawFd, .acceptGuard worker⟩] }
      worker (some file) where
  socket := fun request member _ => by
    rw [List.append_nil, List.mem_singleton] at member
    exact ⟨file, rfl, member⟩
  once := by simp
  more := fun earlier cqe later same => by simp at same

end IoUring

/-! The accept requests over a run. -/

def Server.AcceptsKept (server : Server) : Prop :=
  ∀ worker, (server.workers worker).ioUring.AcceptKept worker
    (server.workers worker).listening

theorem Server.AcceptsKept.setWorker (kept : server.AcceptsKept)
    {contents : Worker}
    (here : contents.ioUring.AcceptKept worker contents.listening) :
    (server.setWorker worker contents).AcceptsKept :=
  setWorker_forall worker contents
    (fun worker contents =>
      contents.ioUring.AcceptKept worker contents.listening) here kept

theorem Server.AcceptsKept.complete (kept : server.AcceptsKept)
    (matched : RingsMatch server) {index : Nat} {result : KernelResult}
    {contents : Worker}
    (completed : (server.workers worker).complete index result =
      some contents) : (server.setWorker worker contents).AcceptsKept := by
  obtain ⟨request, found, answered⟩ := Worker.complete_cases completed
  have here := kept worker
  have queued := List.mem_of_getElem? found
  have fits := (matched.kept worker).fits request (.inr queued)
  rcases answered with
    ⟨res, more, operation, rfl⟩ | ⟨cqe, buffers, operation, received, rfl⟩ |
      ⟨buf, res, operation, rfl⟩
  · refine kept.setWorker (here.accepted more found ?_)
    have present : request.userData ∈ server.outstanding worker := by
      rw [outstanding, IoUring.mem_outstanding]
      exact .inr (.inl ⟨request, queued, rfl⟩)
    obtain ⟨frame, awaits⟩ := matched.awaited worker _ present
    exact awaits.eq_acceptGuard (fits.isAcceptGuard.mpr operation)
  · have carries := ProvidedBuffers.completeRecv_userData received
    refine kept.setWorker (here.answered found carries fun isAccept => ?_)
    have impossible := fits.isAcceptGuard.mp (by rw [isAccept]; rfl)
    cases operation.symm.trans impossible
  · refine kept.setWorker (here.answered found rfl fun isAccept => ?_)
    have impossible := fits.isAcceptGuard.mp (by rw [isAccept]; rfl)
    cases operation.symm.trans impossible

theorem Dispatched.acceptKept {cqe : Cqe} {rest : List Cqe}
    {generated : SessionId} (kept : server.AcceptsKept)
    (next : (server.workers worker).ioUring.cq = cqe :: rest)
    (dispatched : Dispatched server worker cqe rest generated after) :
    after.AcceptsKept := by
  refine workers_forall
    (fun worker contents =>
      contents.ioUring.AcceptKept worker contents.listening)
    dispatched.others ?_ kept
  have seen : (server.seenRing worker rest).AcceptKept worker
      (server.workers worker).listening := (kept worker).seen next
  rw [dispatched.listening]
  cases dispatched.outcome with
  | refused carries failed ring => rwa [ring]
  | accepted carries success ring =>
      rw [ring]
      exact seen.queueRequest (by simp)
  | received rawFd carries suspended received ring =>
      rw [ring]
      exact seen.queueRequest (by simp)
  | ended carries suspended ended ring => rwa [ring]

theorem Server.AcceptsKept.step (kept : before.AcceptsKept)
    (reachable : serverSystem.Reachable before) {label : Label}
    (stepped : Stepped before label after) : after.AcceptsKept := by
  have matched := ringsMatch_of_reachable reachable
  cases stepped with
  | @start worker outcome unstarted =>
      refine workers_forall
        (fun worker contents =>
          contents.ioUring.AcceptKept worker contents.listening)
        (fun _ => startWorker_other outcome) ?_ kept
      have fresh := matched.unstarted worker (not_not.mpr unstarted)
      cases startWorker_started fresh outcome with
      | failed fails ring =>
          rw [ring]
          exact .empty
      | ready succeeds file ring listening =>
          rw [ring, listening]
          exact .first
  | @submit worker looping => exact kept.setWorker (kept worker).submit
  | @submitFails worker looping => exact kept.setWorker (kept worker)
  | @wake worker submitted waiting present =>
      exact kept.setWorker (kept worker)
  | dispatch dispatching next =>
      exact (dispatched_of_reachable reachable dispatching next
        _).acceptKept kept next
  | @endBatch worker dispatching empty => exact kept.setWorker (kept worker)
  | complete completed => exact kept.complete matched completed
  | cleanup swept => exact kept
  | tick => exact kept

theorem acceptsKept_of_reachable (reachable : serverSystem.Reachable server) :
    server.AcceptsKept := by
  refine TransitionSystem.Invariant.of_reachable AcceptsKept ?_ ?_ _ reachable
  · rintro _ rfl worker
    exact .empty
  · intro before label after reached kept step
    exact kept.step reached (step_cases step).2

/-! Being able to accept. -/

/-- A multishot accept of the listening socket is queued or armed, or has a
completion that is not dispatched yet. -/
def Server.AcceptPending (server : Server) (worker : WorkerId) : Prop :=
  (∃ file, (server.workers worker).listening = some file ∧
    ⟨.multishotAccept, file.getRawFd, .acceptGuard worker⟩ ∈
      (server.workers worker).ioUring.sq ++
        (server.workers worker).ioUring.inflight) ∨
  ∃ cqe ∈ (server.workers worker).ioUring.cq,
    cqe.userData = some (.acceptGuard worker)

/-- `accept_clients` waits at `accept()` for something that will come. -/
structure Server.AbleToAccept (server : Server) (worker : WorkerId) :
    Prop where
  suspended : ∃ frame, server.Awaits worker (.acceptGuard worker) frame
  pending : server.AcceptPending worker

theorem ableToAccept_iff (reachable : serverSystem.Reachable server) :
    server.AbleToAccept worker ↔
      .acceptGuard worker ∈ server.outstanding worker := by
  have kept := acceptsKept_of_reachable reachable worker
  constructor
  · intro able
    rw [outstanding, IoUring.mem_outstanding]
    rcases able.pending with ⟨file, -, member⟩ | posted
    · rcases List.mem_append.mp member with queued | armed
      · exact .inl ⟨_, queued, rfl⟩
      · exact .inr (.inl ⟨_, armed, rfl⟩)
    · exact .inr (.inr posted)
  · intro member
    refine ⟨(ringsMatch_of_reachable reachable).awaited _ _ member, ?_⟩
    rw [outstanding, IoUring.mem_outstanding] at member
    rcases member with ⟨request, queued, isAccept⟩ |
      ⟨request, armed, isAccept⟩ | posted
    · have inRing := List.mem_append_left
        (server.workers worker).ioUring.inflight queued
      obtain ⟨file, listening, rfl⟩ := kept.socket request inRing isAccept
      exact .inl ⟨file, listening, inRing⟩
    · have inRing := List.mem_append_right
        (server.workers worker).ioUring.sq armed
      obtain ⟨file, listening, rfl⟩ := kept.socket request inRing isAccept
      exact .inl ⟨file, listening, inRing⟩
    · exact .inr posted

def Server.AllAccepting (server : Server) : Prop :=
  ∀ worker, server.Started worker → server.AbleToAccept worker

/-- What accepting depends on: that `init` goes well, and that the kernel
keeps the multishot accept armed. -/
def Server.KeepsAccepting (server : Server) : Label → Prop
  | .start _ outcome => outcome.Succeeds
  | .dispatch worker _ =>
      ∀ cqe ∈ (server.workers worker).ioUring.cq.head?,
        cqe.userData = some (.acceptGuard worker) →
        hasMore cqe.flags = true
  | _ => True

theorem Dispatched.acceptGuard_mem {cqe : Cqe} {rest : List Cqe}
    {generated : SessionId}
    (dispatched : Dispatched server worker cqe rest generated after) :
    .acceptGuard worker ∈ after.outstanding worker ↔
      (server.workers worker).ioUring.Armed worker ∨
        IoUring.AcceptPosted rest worker := by
  have seen : .acceptGuard worker ∈ (server.seenRing worker rest).outstanding ↔
      (server.workers worker).ioUring.Armed worker ∨
        IoUring.AcceptPosted rest worker :=
    IoUring.mem_outstanding_acceptGuard
  have queued : ∀ rawFd frame, .acceptGuard worker ∈
      ((server.seenRing worker rest).queueRequest
        ⟨.recv, rawFd, .recvAwaiter frame .awaited⟩).outstanding ↔
      .acceptGuard worker ∈ (server.seenRing worker rest).outstanding := by
    intro rawFd frame
    constructor
    · intro member
      exact (IoUring.mem_outstanding_queueRequest member).resolve_right
        SqeAddr.noConfusion
    · exact IoUring.queueRequest_grows
  rw [outstanding, ← seen]
  cases dispatched.outcome with
  | refused carries failed ring => rw [ring]
  | accepted carries success ring => rw [ring, queued]
  | received rawFd carries suspended received ring => rw [ring, queued]
  | ended carries suspended ended ring => rw [ring]

def Server.AcceptsOutstanding (server : Server) : Prop :=
  ∀ worker, server.Started worker →
    .acceptGuard worker ∈ server.outstanding worker

theorem allAccepting_iff (reachable : serverSystem.Reachable server) :
    server.AllAccepting ↔ server.AcceptsOutstanding :=
  forall₂_congr fun _ _ => ableToAccept_iff reachable

theorem Server.AcceptsOutstanding.setWorker
    (accepts : server.AcceptsOutstanding) (started : server.Started worker)
    {contents : Worker}
    (grows : ∀ address ∈ server.outstanding worker,
      address ∈ contents.ioUring.outstanding) :
    (server.setWorker worker contents).AcceptsOutstanding :=
  setWorker_forall worker contents
    (fun worker contents => contents.phase ≠ .notStarted →
      SqeAddr.acceptGuard worker ∈ contents.ioUring.outstanding)
    (fun _ => grows _ (accepts worker started)) accepts

theorem acceptsOutstanding_start (matched : RingsMatch server)
    (accepts : server.AcceptsOutstanding)
    (unstarted : (server.workers worker).phase = .notStarted)
    (outcome : InitOutcome) :
    (server.startWorker worker outcome).AcceptsOutstanding ↔
      outcome.Succeeds := by
  have fresh := matched.unstarted worker (not_not.mpr unstarted)
  have running : (server.startWorker worker outcome).Started worker := by
    rw [Started, (Quiet.startWorker outcome).phase, setWorker_self,
      (initStages_same _ _).1]
    exact Phase.noConfusion
  cases startWorker_started fresh outcome with
  | failed fails ring =>
      refine iff_of_false (fun all => ?_) fails
      have member := all worker running
      rw [outstanding, ring] at member
      simp [IoUring.outstanding] at member
  | ready succeeds file ring =>
      refine iff_of_true ?_ succeeds
      refine workers_forall
        (fun worker contents => contents.phase ≠ .notStarted →
          SqeAddr.acceptGuard worker ∈ contents.ioUring.outstanding)
        (fun _ => startWorker_other outcome) (fun _ => ?_) accepts
      rw [ring]
      simp [IoUring.outstanding]

theorem acceptsOutstanding_dispatch {cqe : Cqe} {rest : List Cqe}
    {generated : SessionId} (kept : before.AcceptsKept)
    (accepts : before.AcceptsOutstanding) (started : before.Started worker)
    (running : after.Started worker)
    (next : (before.workers worker).ioUring.cq = cqe :: rest)
    (dispatched : Dispatched before worker cqe rest generated after) :
    after.AcceptsOutstanding ↔
      (cqe.userData = some (.acceptGuard worker) →
        hasMore cqe.flags = true) := by
  have here : after.AcceptsOutstanding ↔
      .acceptGuard worker ∈ after.outstanding worker := by
    constructor
    · exact fun all => all worker running
    · intro member
      exact workers_forall
        (fun worker contents => contents.phase ≠ .notStarted →
          SqeAddr.acceptGuard worker ∈ contents.ioUring.outstanding)
        dispatched.others (fun _ => member) accepts
  rw [here, dispatched.acceptGuard_mem]
  by_cases isAccept : cqe.userData = some (.acceptGuard worker)
  · rw [← (kept worker).more [] cqe rest next isAccept]
    exact (imp_iff_right isAccept).symm
  · refine iff_of_true ?_ fun accept => absurd accept isAccept
    have member := accepts worker started
    rw [outstanding, IoUring.mem_outstanding_acceptGuard, next] at member
    refine member.imp_right fun posted => ?_
    simpa [IoUring.AcceptPosted, List.mem_filterMap, isAccept] using posted

/-- From a state where every worker accepts, a step leads to one exactly when
accepting is kept. -/
theorem allAccepting_step (reachable : serverSystem.Reachable before)
    (accepting : before.AllAccepting) {label : Label}
    (step : before.step label = some after) :
    after.AllAccepting ↔ before.KeepsAccepting label := by
  have matched := ringsMatch_of_reachable reachable
  rw [allAccepting_iff reachable] at accepting
  rw [allAccepting_iff (reachable.step step)]
  cases (step_cases step).2 with
  | start unstarted =>
      exact acceptsOutstanding_start matched accepting unstarted _
  | @dispatch worker generated cqe rest dispatching next =>
      have started := started_of_phase dispatching Phase.noConfusion
      have phases := matched.dispatch_phase started next generated
      have single : before.KeepsAccepting (.dispatch worker generated) ↔
          (cqe.userData = some (.acceptGuard worker) →
            hasMore cqe.flags = true) := by
        simp [KeepsAccepting, next]
      rw [single]
      refine acceptsOutstanding_dispatch (acceptsKept_of_reachable reachable)
        accepting started ?_ next
        (dispatched_of_reachable reachable dispatching next generated)
      rw [Started, phases]
      exact started
  | submit looping =>
      refine iff_of_true (accepting.setWorker
        (started_of_phase looping Phase.noConfusion) ?_) trivial
      exact fun _ member => IoUring.outstanding_submit.symm.subset member
  | submitFails looping =>
      exact iff_of_true (accepting.setWorker
        (started_of_phase looping Phase.noConfusion)
        fun _ member => member) trivial
  | wake waiting present =>
      exact iff_of_true (accepting.setWorker
        (started_of_phase waiting Phase.noConfusion)
        fun _ member => member) trivial
  | endBatch dispatching empty =>
      exact iff_of_true (accepting.setWorker
        (started_of_phase dispatching Phase.noConfusion)
        fun _ member => member) trivial
  | @complete worker index result contents completed =>
      have started : before.Started worker := by
        intro notStarted
        rw [matched.unstarted worker (not_not.mpr notStarted)] at completed
        cases completed
      exact iff_of_true (accepting.setWorker started
        (Worker.complete_grows completed)) trivial
  | cleanup swept => exact iff_of_true accepting trivial
  | tick => exact iff_of_true accepting trivial

/-- Exactly the runs in which every `init` succeeds and every dispatched
completion of the accept has `F_MORE` leave all workers able to accept. -/
theorem workers_accept_iff {history : List (Server × Label)} {last : Server}
    (run : serverSystem.Execution {} history last) :
    (∀ state ∈ TransitionSystem.visited history last, state.AllAccepting) ↔
      ∀ taken ∈ history, taken.1.KeepsAccepting taken.2 := by
  refine TransitionSystem.Execution.good_iff_guarded ?_ ?_ rfl run
  · rintro _ rfl worker started
    exact absurd rfl started
  · intro before label after reachable accepting step
    exact allAccepting_step reachable accepting step

/-- A worker starts and gets one connection; the kernel keeps the accept armed
or does not. -/
def acceptOnce (more : Bool) : List Label :=
  [.start 0 ⟨0, none, 0, some 3, 0⟩, .submit 0,
    .complete 0 0 (.accepted 7 more), .wake 0, .dispatch 0 "first"]

theorem accepts_with_more :
    ∃ last, TransitionSystem.runLabels Server.step {} (acceptOnce true) =
        some last ∧
      ∀ state ∈ TransitionSystem.visited (TransitionSystem.traceLabels
        Server.step {} (acceptOnce true)) last, state.AllAccepting := by
  have run : ∃ last, TransitionSystem.runLabels Server.step {}
      (acceptOnce true) = some last := ⟨_, rfl⟩
  obtain ⟨last, run⟩ := run
  refine ⟨last, run, (workers_accept_iff (.runLabels run)).mpr ?_⟩
  have trace : TransitionSystem.traceLabels Server.step {}
      (acceptOnce true) = [(_, _), (_, _), (_, _), (_, _), (_, _)] := rfl
  rw [trace]
  have succeeds : InitOutcome.Succeeds ⟨0, none, 0, some 3, 0⟩ :=
    ⟨le_refl 0, rfl, le_refl 0, Option.some_ne_none 3, rfl⟩
  simp only [List.forall_mem_cons]
  refine ⟨succeeds, trivial, trivial, trivial, ?_, List.forall_mem_nil _⟩
  rintro cqe ⟨⟩ -
  rfl

theorem stops_accepting_without_more :
    ∃ last, TransitionSystem.runLabels Server.step {} (acceptOnce false) =
        some last ∧
      last.Started 0 ∧ ¬ last.AbleToAccept 0 := by
  have run : ∃ last, TransitionSystem.runLabels Server.step {}
      (acceptOnce false) = some last ∧
      (last.workers 0).phase = .dispatching ∧
      .acceptGuard 0 ∉ last.outstanding 0 := ⟨_, rfl, rfl, by decide⟩
  obtain ⟨last, run, dispatching, gone⟩ := run
  have reachable : serverSystem.Reachable last :=
    .runLabels (.initial rfl) run
  exact ⟨last, run, started_of_phase dispatching Phase.noConfusion,
    fun able => gone ((ableToAccept_iff reachable).mp able)⟩

end CoUring
